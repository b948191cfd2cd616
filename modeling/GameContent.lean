import GameContent.CommandLine.Directory
import GameContent.Entity.Action
import GameContent.Entity.Dialog
import GameContent.Entity.GlobalTrigger
import GameContent.Entity.Journal
import GameContent.Main
import GameContent.Proofs.Artifact.RoundTrip
import GameContent.Proofs.Transition.Timed
import GameContent.Recipe
import GameContent.Proofs.Artifact.Concatenation
import GameContent.Proofs.Artifact.Brackets
import GameContent.Proofs.Collection.Recipes
import GameContent.Proofs.Transition.Compilation
import GameContent.Proofs.Transition.WaitingReactions
import GameContent.Proofs.Context.Scopes
import GameContent.Proofs.Transition.Items
import GameContent.Proofs.Transition.Unexpanded
import GameContent.Proofs.Transition.References
import GameContent.Proofs.Transition.Descriptions
import GameContent.Proofs.Transition.Normalization
import GameContent.Proofs.Transition.Renaming
import GameContent.Proofs.Transition.Schemes
import GameContent.Proofs.Transition.History
import GameContent.Proofs.Transition.Storage
import GameContent.Proofs.Artifact.Accumulation
import GameContent.Proofs.Value.FloatText
import GameContent.Proofs.Context.HandedOver
import GameContent.Proofs.Collection.Finalizing
import GameContent.Proofs.Transition.Registration
import GameContent.Proofs.Transition.Grammar
import GameContent.Proofs.Transition.Joining
import GameContent.Proofs.Artifact.LineShape
import GameContent.Proofs.Collection.Books
import GameContent.Proofs.Collection.Patching
import GameContent.Proofs.Properties.History
import GameContent.Proofs.Entity.Drafting
import GameContent.Proofs.Entity.Conditions
import GameContent.Proofs.Artifact.Nesting
import GameContent.Proofs.Entity.Flags
import GameContent.Proofs.Artifact.Commenting
import GameContent.Proofs.Inspection
