import GameContent.Entity.Dialog
import GameContent.Proofs.Artifact.OwnLines
import GameContent.Proofs.Text.Replacing
import Mathlib.Data.List.Induction

/-!
# `Proofs.Entity.Drafting` — dialog nodes drafted by any calls

A draft grows by calls in any order, and each call adds to one part of it: to the lines, to the
options or to the properties. The record is made of the parts at the end, with the lines taken apart
into animations and statements. These are written last, so no call can come between them, and the
two lists belong together by position in the record and in its text.

## Contents
- `Call`, and what a call adds to each part of a draft.
- **Parts.** Each part of a draft from the calls alone (`lines_drafted` and its companions).
- **Entries.** What holds of all entries of the record (`forall_entries_build`).
- **Texts.** Where the texts of the record come from, so that they hold no line break if those of
  the calls do not.
- **Lines.** `animations_parallel_statements`.
-/

namespace GameContent
namespace DialogNode
open Text

/-! ## Calls -/

/-- One call on a draft. -/
inductive Call where
  /-- Gives the node an id. -/
  | named (id : String)
  /-- Sets a property. -/
  | property (key : String) (value : Value)
  /-- Adds a line without animation. -/
  | statement (text : String)
  /-- Adds a line with an animation. -/
  | animated (animation text : String)
  /-- Adds an option that leads to `node`. -/
  | option (text : String) (node : Value)
  /-- Adds an option with more properties, and perhaps an id. -/
  | optionWith (text : String) (node : Value) (extra : Properties) (id : Option String)

namespace Call

/-- The draft after the call. -/
def apply (d : DialogNode) : Call → DialogNode
  | named id => d.named id
  | property key value => d.property key value
  | statement text => d.statement text
  | animated animation text => d.animated animation text
  | option text node => d.option text node ∅ none
  | optionWith text node extra id => d.option text node extra id

/-- The id that the call gives. -/
def id? : Call → Option String
  | named id => some id
  | _ => none

/-- The property that the call sets. -/
def property? : Call → Option (String × Value)
  | property key value => some (key, value)
  | _ => none

/-- The line that the call adds; a statement comes with an empty animation. -/
def line? : Call → Option DialogLine
  | statement text => some ⟨"", text⟩
  | animated animation text => some ⟨animation, text⟩
  | _ => none

/-- The record of an option. -/
def optionRecord (text : String) (node : Value) (extra : Properties) (id : Option String) :
    Record :=
  ⟨"DialogOption", id.elim .absent .named, (extra.set "text" text).set "nodeToConnectTo" node, []⟩

/-- The record of the option that the call adds. -/
def option? : Call → Option Record
  | option text node => some (optionRecord text node ∅ none)
  | optionWith text node extra id => some (optionRecord text node extra id)
  | _ => none

/-- The texts that the call brings in, with those that its values write out. -/
def texts : Call → List String
  | named id => [id]
  | property key value => key :: value.scalarTexts
  | statement text => [text]
  | animated animation text => [animation, text]
  | option text node => text :: node.scalarTexts
  | optionWith text node extra id => text :: node.scalarTexts
      ++ extra.entries.flatMap (fun e => e.1 :: e.2.scalarTexts) ++ id.toList

end Call

/-- The draft after a sequence of calls: of a node that replaces another one, or of a plain one. -/
def drafted (replaces : Option String) (calls : List Call) : DialogNode :=
  calls.foldl Call.apply (replaces.elim plain replacing)

/-! ## Parts -/

section Apply

variable (d : DialogNode) (c : Call)

/-- A call adds its line, if it has one. -/
theorem lines_apply : (c.apply d).lines = d.lines ++ c.line?.toList := by
  cases c with
  | statement text => rfl
  | animated animation text => rfl
  | _ => exact (List.append_nil _).symm

/-- It adds its option. -/
theorem options_apply : (c.apply d).options = d.options ++ c.option?.toList := by
  cases c with
  | option text node => rfl
  | optionWith text node extra id => rfl
  | _ => exact (List.append_nil _).symm

/-- It sets its property. -/
theorem properties_apply : (c.apply d).properties = d.properties.setAll c.property?.toList := by
  cases c <;> rfl

/-- It gives its id. -/
theorem id_apply : (c.apply d).id = c.id?.or d.id := by
  cases c <;> rfl

theorem replaces_apply : (c.apply d).replaces = d.replaces := by
  cases c <;> rfl

end Apply

theorem drafted_concat (replaces : Option String) (calls : List Call) (c : Call) :
    drafted replaces (calls ++ [c]) = c.apply (drafted replaces calls) := by
  rw [drafted, List.foldl_append]
  rfl

theorem filterMap_concat {α β : Type} (f : α → Option β) (as : List α) (a : α) :
    (as ++ [a]).filterMap f = as.filterMap f ++ (f a).toList := by
  rw [List.filterMap_append]
  cases h : f a <;> simp [h]

section Parts

variable (replaces : Option String) (calls : List Call)

/-- The lines are those that the calls add, in order. -/
theorem lines_drafted : (drafted replaces calls).lines = calls.filterMap Call.line? := by
  -- The draft grows at its end, so the induction takes the last call off, here and below.
  induction calls using List.reverseRecOn with
  | nil => cases replaces <;> rfl
  | append_singleton calls c ih => rw [drafted_concat, lines_apply, filterMap_concat, ih]

/-- So are the options. -/
theorem options_drafted : (drafted replaces calls).options = calls.filterMap Call.option? := by
  induction calls using List.reverseRecOn with
  | nil => cases replaces <;> rfl
  | append_singleton calls c ih => rw [drafted_concat, options_apply, filterMap_concat, ih]

/-- The properties are those that the calls set, in order. -/
theorem properties_drafted :
    (drafted replaces calls).properties = .ofList (calls.filterMap Call.property?) := by
  induction calls using List.reverseRecOn with
  | nil => cases replaces <;> rfl
  | append_singleton calls c ih =>
    rw [drafted_concat, properties_apply, filterMap_concat, ih]
    unfold Properties.ofList Properties.setAll
    rw [List.foldl_append]

/-- The id is the one that was given last. -/
theorem id_drafted : (drafted replaces calls).id = (calls.filterMap Call.id?).getLast? := by
  induction calls using List.reverseRecOn with
  | nil => cases replaces <;> rfl
  | append_singleton calls c ih =>
    rw [drafted_concat, id_apply, filterMap_concat, ih, List.getLast?_append]
    cases c.id? <;> rfl

theorem replaces_drafted : (drafted replaces calls).replaces = replaces := by
  induction calls using List.reverseRecOn with
  | nil => cases replaces <;> rfl
  | append_singleton calls c ih => rw [drafted_concat, replaces_apply, ih]

end Parts

/-! ## Entries -/

section Entries

variable {d : DialogNode} {fresh : String} {P : String × Value → Prop}

theorem properties_build (fresh : String) (d : DialogNode) :
    (d.build fresh).properties
      = ((d.replaces.elim d.properties fun replaced =>
            overrideProperties (d.id.getD fresh) replaced d.properties).set
          "animations" (.texts (d.lines.map DialogLine.animation))).set
        "statements" (.texts (d.lines.map DialogLine.statement)) := by
  unfold build
  cases d.replaces <;> rfl

/-- What holds of all entries of the record: it holds of those that were set, resolving the
    condition does not change that, and it holds of those that are added at the end. -/
theorem forall_entries_build (hset : ∀ e ∈ d.properties.entries, P e)
    (hresolve : ∀ v, P (conditionKey, v) → P (conditionKey, resolve (d.id.getD fresh) v))
    (hreplaced : ∀ replaced, d.replaces = some replaced →
      P ("dialogNodeID_toOverride", .str replaced))
    (hanimations : P ("animations", .texts (d.lines.map DialogLine.animation)))
    (hstatements : P ("statements", .texts (d.lines.map DialogLine.statement))) :
    ∀ e ∈ (d.build fresh).properties.entries, P e := by
  rw [properties_build]
  refine Properties.forall_entries_set (Properties.forall_entries_set ?_ hanimations) hstatements
  cases hrep : d.replaces with
  | none => exact hset
  | some replaced =>
    exact Properties.forall_entries_modify
      (Properties.forall_entries_set hset (hreplaced replaced hrep)) hresolve

end Entries

/-! ## Texts -/

/-- The key of a property and the texts of its value hold no line break. -/
def UnbrokenEntry (e : String × Value) : Prop :=
  ∀ text ∈ e.1 :: e.2.scalarTexts, '\n' ∉ text.toList

theorem unbroken_of_entries {r : Record} (htype : '\n' ∉ r.typeName.toList)
    (hid : ∀ id, r.id? = some id → '\n' ∉ id.toList)
    (hentries : ∀ e ∈ r.properties.entries, UnbrokenEntry e) : r.Unbroken where
  typeName := htype
  id := hid
  key e he := hentries e he _ List.mem_cons_self
  value e he v hv hnull := by
    refine hentries e he _ (List.mem_cons_of_mem _ (List.mem_map_of_mem ?_))
    rw [Value.scalars_eq]
    exact List.mem_filter.2 ⟨hv, by rw [hnull]; rfl⟩

theorem unbrokenEntry_str {key text : String} (hkey : '\n' ∉ key.toList)
    (htext : '\n' ∉ text.toList) : UnbrokenEntry (key, .str text) := by
  intro t ht
  rcases List.mem_cons.1 ht with rfl | ht
  · exact hkey
  · rw [List.mem_singleton.1 ht]
    exact htext

theorem unbrokenEntry_texts {key : String} {texts : List String} (hkey : '\n' ∉ key.toList)
    (htexts : ∀ text ∈ texts, '\n' ∉ text.toList) : UnbrokenEntry (key, .texts texts) := by
  intro t ht
  rcases List.mem_cons.1 ht with rfl | ht
  · exact hkey
  · obtain ⟨v, hv, rfl⟩ := List.mem_map.1 ht
    obtain ⟨text, htext, rfl⟩ := List.mem_map.1 (List.mem_of_mem_filter hv)
    exact htexts text htext

/-- The id that is put in brings no line break with it. -/
theorem UnbrokenEntry.resolve {key id : String} {v : Value} (h : UnbrokenEntry (key, v))
    (hid : '\n' ∉ id.toList) : UnbrokenEntry (key, DialogNode.resolve id v) := by
  cases v with
  | str condition =>
    refine unbrokenEntry_str (h _ List.mem_cons_self) fun hbreak => ?_
    rw [replaceAll, String.toList_ofList] at hbreak
    rcases mem_of_mem_replaceFrom hbreak with hm | hm
    · exact hid hm
    · exact h condition (List.mem_cons_of_mem _ (List.mem_singleton_self _)) hm
  | _ => exact h

namespace Call

/-- The record of an option holds no line break if what it is made of does not. -/
theorem unbroken_optionRecord {text : String} {node : Value} {extra : Properties}
    {id : Option String} (htext : '\n' ∉ text.toList)
    (hnode : ∀ t ∈ node.scalarTexts, '\n' ∉ t.toList)
    (hextra : ∀ e ∈ extra.entries, UnbrokenEntry e)
    (hid : ∀ i ∈ id.toList, '\n' ∉ i.toList) : (optionRecord text node extra id).Unbroken := by
  refine unbroken_of_entries (show '\n' ∉ "DialogOption".toList by decide) (fun i hi => ?_) ?_
  · cases id with
    | none => exact absurd hi nofun
    | some j => exact hid i (Option.mem_toList.2 hi)
  · refine Properties.forall_entries_set (Properties.forall_entries_set hextra ?_) ?_
    · exact unbrokenEntry_str (by decide) htext
    · exact List.forall_mem_cons.2 ⟨show '\n' ∉ "nodeToConnectTo".toList by decide, hnode⟩

theorem unbroken_option {c : Call} (h : ∀ text ∈ c.texts, '\n' ∉ text.toList) {o : Record}
    (ho : c.option? = some o) : o.Unbroken := by
  cases c with
  | option text node =>
    obtain rfl := Option.some.inj ho
    obtain ⟨htext, hnode⟩ := List.forall_mem_cons.1 h
    exact unbroken_optionRecord htext hnode (fun e he => absurd he List.not_mem_nil) nofun
  | optionWith text node extra id =>
    obtain rfl := Option.some.inj ho
    rw [texts, List.forall_mem_append, List.forall_mem_append, List.forall_mem_cons] at h
    obtain ⟨⟨⟨htext, hnode⟩, hextra⟩, hid⟩ := h
    exact unbroken_optionRecord htext hnode
      (fun e he t ht => hextra t (List.mem_flatMap_of_mem he ht)) hid
  | _ => exact absurd ho nofun

/-- An option owns no record. -/
theorem subrecords_option {c : Call} {o : Record} (ho : c.option? = some o) :
    o.subrecords = [] := by
  cases c with
  | option text node =>
    obtain rfl := Option.some.inj ho
    rfl
  | optionWith text node extra id =>
    obtain rfl := Option.some.inj ho
    rfl
  | _ => exact absurd ho nofun

end Call

/-! ## Lines -/

/-- A record lists the animations and the statements of dialog lines, each list as one property. -/
structure Parallel (r : Record) (lines : List DialogLine) : Prop where
  /-- The one property of the animations. -/
  animations : r.properties.entries.filter (·.1 = "animations")
    = [("animations", .texts (lines.map DialogLine.animation))]
  /-- The one property of the statements. -/
  statements : r.properties.entries.filter (·.1 = "statements")
    = [("statements", .texts (lines.map DialogLine.statement))]

/-- The text of a record shows the animations and the statements of dialog lines in the block of the
    record, a line for each. -/
structure ParallelLines (indent : Nat) (r : Record) (lines : List DialogLine) (own : List String) :
    Prop where
  /-- The block of the record comes first, and then those of the records that it owns. -/
  text : linesOf (r.encode indent)
    = own ++ (Record.subrecordsPlaced [r] r.subrecords).flatMap (Placed.group indent)
  /-- It ends before the next header. -/
  block : 0 < indent → firstBlock (linesOf (r.encode indent)) = own
  /-- Its lines for animations. -/
  animations : own.filter (showsKey indent "animations")
    = lines.map fun line => fieldLine indent "animations" line.animation
  /-- Its lines for statements. -/
  statements : own.filter (showsKey indent "statements")
    = lines.map fun line => fieldLine indent "statements" line.statement

/-- The texts that go into a draft and its record can be told apart in the text of the record. -/
structure Legible (replaces : Option String) (fresh : String) (calls : List Call) : Prop where
  /-- No text holds a line break. -/
  unbroken : ∀ text ∈ ((drafted replaces calls).build fresh).id?.toList ++ replaces.toList
    ++ calls.flatMap Call.texts, '\n' ∉ text.toList
  /-- No key of a property holds an equals sign. -/
  keys : ∀ e ∈ calls.filterMap Call.property?, '=' ∉ e.1.toList

section Build

variable {replaces : Option String} {fresh : String} {calls : List Call}

theorem id_build (fresh : String) (d : DialogNode) :
    (d.build fresh).id? = some (d.id.getD fresh) := rfl

theorem get?_animations_build (fresh : String) (d : DialogNode) :
    (d.build fresh).properties.get? "animations"
      = some (.texts (d.lines.map DialogLine.animation)) := by
  rw [properties_build, Properties.get?_set, if_neg (by decide), Properties.get?_set, if_pos rfl]

theorem get?_statements_build (fresh : String) (d : DialogNode) :
    (d.build fresh).properties.get? "statements"
      = some (.texts (d.lines.map DialogLine.statement)) := by
  rw [properties_build, Properties.get?_set, if_pos rfl]

/-- The properties of the record hold no line break. -/
theorem Legible.unbroken_entries (h : Legible replaces fresh calls) :
    ∀ e ∈ ((drafted replaces calls).build fresh).properties.entries, UnbrokenEntry e := by
  obtain ⟨hid, hreplaces, hcalls⟩ : _ ∧ _ ∧ _ := by
    have hall := h.unbroken
    rw [id_build, List.forall_mem_append, List.forall_mem_append] at hall
    exact ⟨hall.1.1 _ (List.mem_singleton_self _), hall.1.2, hall.2⟩
  have hline : ∀ line ∈ (drafted replaces calls).lines,
      '\n' ∉ line.animation.toList ∧ '\n' ∉ line.statement.toList := by
    rw [lines_drafted]
    intro line hline
    obtain ⟨c, hc, hcline⟩ := List.mem_filterMap.1 hline
    have htexts := fun text ht => hcalls text (List.mem_flatMap_of_mem hc ht)
    cases c with
    | statement text =>
      obtain rfl := Option.some.inj hcline
      exact ⟨List.not_mem_nil, htexts text (List.mem_singleton_self _)⟩
    | animated animation text =>
      obtain rfl := Option.some.inj hcline
      exact ⟨htexts animation (by simp [Call.texts]), htexts text (by simp [Call.texts])⟩
    | _ => exact absurd hcline nofun
  -- What is left are the properties that were set, the replaced id and the two lists.
  refine forall_entries_build ?_ (fun v hv => hv.resolve hid) (fun replaced hreplaced => ?_) ?_ ?_
  · rw [properties_drafted]
    refine Properties.forall_entries_setAll (fun e he => absurd he List.not_mem_nil) fun e he => ?_
    obtain ⟨c, hc, hce⟩ := List.mem_filterMap.1 he
    cases c with
    | property key value =>
      obtain rfl := Option.some.inj hce
      exact fun t ht => hcalls t (List.mem_flatMap_of_mem hc ht)
    | _ => exact absurd hce nofun
  · rw [replaces_drafted] at hreplaced
    exact unbrokenEntry_str (by decide) (hreplaces replaced (Option.mem_toList.2 hreplaced))
  · refine unbrokenEntry_texts (by decide) fun text ht => ?_
    obtain ⟨line, hmem, rfl⟩ := List.mem_map.1 ht
    exact (hline line hmem).1
  · refine unbrokenEntry_texts (by decide) fun text ht => ?_
    obtain ⟨line, hmem, rfl⟩ := List.mem_map.1 ht
    exact (hline line hmem).2

/-- Neither does the record, nor one that it owns. -/
theorem Legible.unbroken_placed (h : Legible replaces fresh calls) :
    ∀ p ∈ ((drafted replaces calls).build fresh).placed [], p.record.Unbroken := by
  have hoptions : ∀ o ∈ (drafted replaces calls).options, o.Unbroken ∧ o.subrecords = [] := by
    rw [options_drafted]
    intro o ho
    obtain ⟨c, hc, hco⟩ := List.mem_filterMap.1 ho
    refine ⟨Call.unbroken_option (fun text ht => ?_) hco, Call.subrecords_option hco⟩
    exact h.unbroken text (List.mem_append_right _ (List.mem_flatMap_of_mem hc ht))
  rw [Record.placed_eq]
  refine List.forall_mem_cons.2 ⟨unbroken_of_entries ?_ (fun id hid => ?_) h.unbroken_entries, ?_⟩
  · show '\n' ∉ (ite _ _ _ : String).toList
    split <;> decide
  · exact h.unbroken id (List.mem_append_left _ (List.mem_append_left _ (Option.mem_toList.2 hid)))
  · show ∀ p ∈ Record.subrecordsPlaced _ (drafted replaces calls).options, p.record.Unbroken
    rw [Record.subrecordsPlaced_eq_map _ fun o ho => (hoptions o ho).2]
    exact List.forall_mem_map.2 fun o ho => (hoptions o ho).1

/-- No key of the record holds an equals sign. -/
theorem Legible.keys_build (h : Legible replaces fresh calls) :
    ∀ k ∈ ((drafted replaces calls).build fresh).properties.keys, '=' ∉ k.toList := by
  refine List.forall_mem_map.2 (forall_entries_build ?_ (fun v hv => hv) ?_ ?_ ?_)
  · rw [properties_drafted]
    exact Properties.forall_entries_setAll (fun e he => absurd he List.not_mem_nil) h.keys
  · exact fun replaced _ => show '=' ∉ "dialogNodeID_toOverride".toList by decide
  · exact show '=' ∉ "animations".toList by decide
  · exact show '=' ∉ "statements".toList by decide

end Build

/-- The texts of a list of texts are all written, the empty ones too. -/
theorem scalarTexts_texts (texts : List String) : (Value.texts texts).scalarTexts = texts := by
  have hscalars : (Value.texts texts).scalars = texts.map .str := by
    refine List.filter_eq_self.2 fun v hv => ?_
    obtain ⟨text, -, rfl⟩ := List.mem_map.1 hv
    rfl
  rw [Value.scalarTexts, hscalars, List.map_map]
  exact List.map_id'' (fun text => by rw [Function.comp_apply, Value.render]) texts

/-- **The animations and the statements of a dialog node stay parallel.** Whatever calls drafted it,
    its record has one property for each list, and they go through the lines of the draft side by
    side. If no text brings a line break or a stray equals sign, the block of the record shows both
    lists in full. -/
theorem animations_parallel_statements (replaces : Option String) (fresh : String)
    (calls : List Call) :
    Parallel ((drafted replaces calls).build fresh) (calls.filterMap Call.line?)
      ∧ (Legible replaces fresh calls → ∀ indent,
        ParallelLines indent ((drafted replaces calls).build fresh) (calls.filterMap Call.line?)
          ((⟨(drafted replaces calls).build fresh, []⟩ : Placed).group indent)) := by
  have hlines := lines_drafted replaces calls
  have hanimations := get?_animations_build fresh (drafted replaces calls)
  have hstatements := get?_statements_build fresh (drafted replaces calls)
  rw [hlines] at hanimations hstatements
  refine ⟨⟨?_, ?_⟩, fun h indent => ?_⟩
  · rw [Properties.filter_entries, hanimations]
    rfl
  · rw [Properties.filter_entries, hstatements]
    rfl
  refine ⟨linesOf_encode indent h.unbroken_placed,
    fun hindent => firstBlock_encode hindent h.unbroken_placed, ?_, ?_⟩
  · rw [Placed.filter_group _ indent (by decide) (by decide) (by decide) h.keys_build, hanimations,
      Option.getD_some, scalarTexts_texts, List.map_map]
    rfl
  · rw [Placed.filter_group _ indent (by decide) (by decide) (by decide) h.keys_build, hstatements,
      Option.getD_some, scalarTexts_texts, List.map_map]
    rfl

/-- A draft whose list of animations is set by hand in between. -/
def greeting : List Call :=
  [.statement "Hello.", .property "animations" (.texts ["nod", "nod", "nod"]),
    .animated "wave" "Bye.", .option "Leave." (.str "end"),
    .property "fReq" (.str (notSeen placeholder))]

theorem greeting_shows_animations :
    Legible (some "intro") (freshId "dialog_" 7) greeting
      ∧ (firstBlock (linesOf (((drafted (some "intro") greeting).build (freshId "dialog_" 7)).encode
          4))).filter (showsKey 4 "animations") = ["    animations=;", "    animations=wave;"] := by
  have h : Legible (some "intro") (freshId "dialog_" 7) greeting :=
    ⟨by decide +kernel, by decide +kernel⟩
  have hlines :=
    (animations_parallel_statements (some "intro") (freshId "dialog_" 7) greeting).2 h 4
  refine ⟨h, ?_⟩
  rw [hlines.block (by decide), hlines.animations]
  decide

end DialogNode
end GameContent
