import GameContent.Proofs.Artifact.Reading

/-!
# `Proofs.Artifact.Concatenation` — reading artifacts one after the other

Artifacts can be put together by writing one below the other, as long as the second one opens with a
block. Reading the whole is then reading the parts: the first error is reported, with its block
counted from the start of the whole, and otherwise the bags of the parts come one after the other.

## Contents
- `OpensWithBlock` is what the second text must satisfy.
- `parse_below` reads the whole in terms of the parts; the main result spells it out.
-/

namespace GameContent
open Text

/-- Comments and blanks apart, the text is empty or begins with an opening bracket. -/
def OpensWithBlock (text : String) : Prop :=
  trim (withoutComments text.toList) = []
    ∨ (trim (withoutComments text.toList)).head? = some '['

instance (text : String) : Decidable (OpensWithBlock text) :=
  inferInstanceAs (Decidable (_ ∨ _))

/-- Only blanks stand before the first block of such a text. -/
theorem OpensWithBlock.exists_pieces {text : String} (h : OpensWithBlock text) :
    ∃ front blocks, pieces '[' (withoutComments text.toList) = front :: blocks ∧ Blank front := by
  obtain ⟨before, after, hbefore, -, he⟩ := exists_eq_trim (withoutComments text.toList)
  have hnone : '[' ∉ before := hbefore.not_mem (by decide)
  rcases h with hnil | hhead
  · have hblank : Blank (withoutComments text.toList) := trim_eq_nil_iff.1 hnil
    exact ⟨_, [], pieces_of_not_mem (hblank.not_mem (by decide)), hblank⟩
  · obtain ⟨rest, hrest⟩ := List.head?_eq_some_iff.1 hhead
    refine ⟨before, pieces '[' (rest ++ after), ?_, hbefore⟩
    rw [he, hrest, List.cons_append, pieces_append_cons, pieces_of_not_mem hnone,
      List.singleton_append]

/-- **One text below another.** The second text is read if the first can be, and its errors count
    the blocks of both. -/
theorem parse_below {a b : String} (hb : OpensWithBlock b) :
    parse (a ++ "\n" ++ b)
      = (parse a).bind fun ps =>
          ((parse b).mapError (ParseError.later ((withoutComments a.toList).count '['))).map
            (ps ++ ·) := by
  obtain ⟨front, blocks, hpieces, hfront⟩ := hb.exists_pieces
  have htext : withoutComments (a ++ "\n" ++ b).toList
      = withoutComments a.toList ++ '\n' :: withoutComments b.toList := by
    rw [String.toList_append, String.toList_append, List.append_assoc]
    exact withoutComments_append_newline a.toList b.toList
  simp only [parse_eq, htext, Block.readAll_pieces_append_newline hpieces hfront,
    Block.readAll_later]

/-- **Reading is compositional.** If a text opens with a block and stands below another one, then an
    error in the first text is reported as it is, two texts without errors give the bags of the
    first and then those of the second, and an error in the second text only is reported with its
    block counted on from those of the first. -/
theorem parse_append_newline {a b : String} (hb : OpensWithBlock b) :
    (∀ e, parse a = .error e → parse (a ++ "\n" ++ b) = .error e)
      ∧ (∀ ps qs, parse a = .ok ps → parse b = .ok qs → parse (a ++ "\n" ++ b) = .ok (ps ++ qs))
      ∧ ∀ ps e, parse a = .ok ps → parse b = .error e →
        parse (a ++ "\n" ++ b)
          = .error (e.later ((withoutComments a.toList).count '[')) := by
  rw [parse_below hb]
  refine ⟨?_, ?_, ?_⟩
  · intro e ha
    rw [ha]
    rfl
  · intro ps qs ha hqs
    rw [ha, hqs]
    rfl
  · intro ps e ha he
    rw [ha, he]
    rfl

/-- Two beds, one of them in a comment that does not count, and blanks and a comment at the end. -/
def bedText : String := "[Bed] row=1; -- [old]\n [Bed] \n -- ["

/-- Two seeds behind a comment with a bracket. The second one has a bracket too many. -/
def seedText : String := " -- ]\n\n[Seed] name=Beet; [Seed] x] y"

theorem parse_append_newline_seedText :
    OpensWithBlock seedText ∧ (∃ ps, parse bedText = .ok ps)
      ∧ parse seedText = .error (.strayBracket 2 "Seed] x] y")
      ∧ parse (bedText ++ "\n" ++ seedText) = .error (.strayBracket 4 "Seed] x] y") := by
  have hopens : OpensWithBlock seedText := by decide +kernel
  have hbeds : (parse bedText).isOk = true := by decide +kernel
  have hseeds : parse seedText = .error (.strayBracket 2 "Seed] x] y") := by rfl
  obtain ⟨ps, hps⟩ := exists_eq_ok_of_isOk hbeds
  exact ⟨hopens, ⟨ps, hps⟩, hseeds, (parse_append_newline hopens).2.2 ps _ hps hseeds⟩

end GameContent
