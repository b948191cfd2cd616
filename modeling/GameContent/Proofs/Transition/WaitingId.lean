import GameContent.Proofs.Text.Cutting
import GameContent.Transition.Expansion

/-!
# `Proofs.Transition.WaitingId` — the ids of waiting states never clash by accident

`IdScheme.idAt` follows a chain from its head. Along one chain the ids are distinct
(`idAt_injective`). Two chains meet only where one of them runs into the head of the other
(`idAt_clash`): a day number can be read off the end of its id, and underscores that are appended
can be taken off again.
-/

namespace GameContent
namespace IdScheme

/-- The id that a chain has reached after `k` steps from its head. -/
def idAt (scheme : IdScheme) (head : String) : Nat → String
  | 0 => head
  | k + 1 => scheme.waitingId head (scheme.idAt head k) (k + 1)

theorem toList_idAt_dayIndexed (head : String) (k : Nat) :
    (dayIndexed.idAt head (k + 1)).toList
      = (head.toList ++ ['_', '_', 'd', 'a']) ++ 'y' :: Nat.toDigits 10 (k + 1) := by
  have hdigits : (toString (k + 1)).toList = Nat.toDigits 10 (k + 1) := Nat.toList_repr
  rw [idAt, waitingId, String.toList_append, String.toList_append, hdigits]
  simp

/-- The `k`-th id of the suffix scheme is the head with `k` underscores. -/
theorem toList_idAt_suffix (head : String) (k : Nat) :
    (suffix.idAt head k).toList = head.toList ++ List.replicate k '_' := by
  induction k with
  | zero => simp [idAt]
  | succ k ih =>
    rw [idAt, waitingId, String.toList_append, ih, List.replicate_succ']
    simp

/-- An id of the day scheme tells its head and its number. -/
theorem idAt_dayIndexed_inj {h h' : String} {j k : Nat}
    (he : dayIndexed.idAt h (j + 1) = dayIndexed.idAt h' (k + 1)) : h = h' ∧ j = k := by
  have hy : ∀ n, 'y' ∉ (Nat.toDigits 10 n).reverse := by
    intro n hm
    have hdigit := Nat.isDigit_of_mem_toDigits (by decide) (by decide) (List.mem_reverse.1 hm)
    exact absurd hdigit (by decide)
  -- Read backwards, the day number ends at the first `y`.
  have hrev : ∀ h k, (dayIndexed.idAt h (k + 1)).toList.reverse
      = (Nat.toDigits 10 (k + 1)).reverse ++ 'y' :: (['a', 'd', '_', '_'] ++ h.toList.reverse) := by
    intro h k
    rw [toList_idAt_dayIndexed]
    simp
  have hcut := congrArg (fun s => Text.cut 'y' s.toList.reverse) he
  simp only [hrev, Text.cut_append_cons (hy _)] at hcut
  obtain ⟨hdigits, hhead⟩ := Prod.mk.inj (Option.some.inj hcut)
  constructor
  · exact String.toList_inj.1 (List.reverse_inj.1 (List.append_cancel_left hhead))
  · have hnum := congrArg (fun ds => Nat.ofDigitChars 10 ds 0) (List.reverse_inj.1 hdigits)
    simp only [Nat.ofDigitChars_ten_toDigits] at hnum
    omega

theorem length_lt_length_idAt (scheme : IdScheme) (head : String) (k : Nat) :
    head.toList.length < (scheme.idAt head (k + 1)).toList.length := by
  cases scheme with
  | dayIndexed =>
    rw [toList_idAt_dayIndexed]
    simp
  | suffix =>
    rw [toList_idAt_suffix]
    simp

/-- No waiting state of a chain has the id of its head. -/
theorem idAt_succ_ne_head (scheme : IdScheme) (head : String) (k : Nat) :
    scheme.idAt head (k + 1) ≠ head := by
  intro he
  have hlt := length_lt_length_idAt scheme head k
  rw [he] at hlt
  exact absurd hlt (Nat.lt_irrefl _)

/-- **One chain.** The ids along a chain are distinct. -/
theorem idAt_injective (scheme : IdScheme) (head : String) :
    Function.Injective (scheme.idAt head) := by
  intro j k he
  cases scheme with
  | dayIndexed =>
    cases j with
    | zero =>
      cases k with
      | zero => rfl
      | succ k => exact absurd he.symm (idAt_succ_ne_head _ head k)
    | succ j =>
      cases k with
      | zero => exact absurd he (idAt_succ_ne_head _ head j)
      | succ k => rw [(idAt_dayIndexed_inj he).2]
  | suffix =>
    have hlen := congrArg (fun s => s.toList.length) he
    simpa [toList_idAt_suffix] using hlen

/-- A chain whose `j`-th id is the `k`-th of a shorter chain runs into the head of that one. -/
theorem idAt_suffix_sub {h h' : String} {j k : Nat} (hkj : k ≤ j)
    (he : suffix.idAt h j = suffix.idAt h' k) : suffix.idAt h (j - k) = h' := by
  have hlist := congrArg String.toList he
  have hsplit : List.replicate j '_' = List.replicate (j - k) '_' ++ List.replicate k '_' := by
    rw [← List.replicate_add, Nat.sub_add_cancel hkj]
  rw [toList_idAt_suffix, toList_idAt_suffix, hsplit, ← List.append_assoc] at hlist
  apply String.toList_inj.1
  rw [toList_idAt_suffix]
  exact List.append_cancel_right hlist

/-- **Two chains.** Waiting states of different heads have the same id only if one of the two chains
    has run into the head of the other before. -/
theorem idAt_clash {scheme : IdScheme} {h h' : String} {j k : Nat} (hne : h ≠ h')
    (he : scheme.idAt h (j + 1) = scheme.idAt h' (k + 1)) :
    (∃ i < j, scheme.idAt h (i + 1) = h') ∨ ∃ i < k, scheme.idAt h' (i + 1) = h := by
  cases scheme with
  | dayIndexed => exact absurd (idAt_dayIndexed_inj he).1 hne
  | suffix =>
    rcases Nat.lt_trichotomy j k with hjk | rfl | hkj
    · refine Or.inr ⟨k - j - 1, by omega, ?_⟩
      have hsub := idAt_suffix_sub (by omega) he.symm
      rwa [show k + 1 - (j + 1) = k - j - 1 + 1 by omega] at hsub
    · have hsub := idAt_suffix_sub (Nat.le_refl _) he
      rw [Nat.sub_self] at hsub
      exact absurd hsub hne
    · refine Or.inl ⟨j - k - 1, by omega, ?_⟩
      have hsub := idAt_suffix_sub (by omega) he
      rwa [show j + 1 - (k + 1) = j - k - 1 + 1 by omega] at hsub

end IdScheme
end GameContent
