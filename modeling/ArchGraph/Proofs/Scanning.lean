import ArchGraph.Text
import Mathlib.Data.List.Infix
import Mathlib.Data.List.TakeWhile

/-!
Texts read from left to right. `scan_induction` follows the reading of any rule: at each place the
rule either finds something, and reading goes on behind it, or it does not, and one character is
kept.

The second half is about taking a fixed token out of a text (`without`). A character that is not
part of the token keeps what stands on its two sides apart (`without_append_cons`), so a part of a
text that is set off by such characters loses just what it would lose as part of the whole.
-/

namespace ArchGraph.Text

theorem takeWhile_append_cons {p : Char → Bool} {front : List Char} {c : Char}
    (hfront : ∀ d ∈ front, p d = true) (hc : p c = false) (rest : List Char) :
    (front ++ c :: rest).takeWhile p = front := by
  rw [List.takeWhile_append_of_pos hfront, List.takeWhile_cons_of_neg (by simp [hc]),
    List.append_nil]

/-- What does not hold throughout a text fails at a first character. -/
theorem exists_first_failure {p : Char → Bool} {cs : List Char} (h : ¬ ∀ c ∈ cs, p c = true) :
    ∃ front c rest, cs = front ++ c :: rest ∧ (∀ d ∈ front, p d = true) ∧ p c = false := by
  obtain ⟨c, rest, hdrop⟩ : ∃ c rest, cs.dropWhile p = c :: rest := by
    apply List.exists_cons_of_ne_nil
    rwa [Ne, List.dropWhile_eq_nil_iff]
  refine ⟨cs.takeWhile p, c, rest, ?_, fun d hd => List.mem_takeWhile_imp hd, ?_⟩
  · rw [← hdrop, List.takeWhile_append_dropWhile]
  · have hhead := List.head?_dropWhile_not p cs
    simpa [hdrop] using hhead

/-! ## Rules -/

section Rules

variable {β : Type} {rule : Rule β} {keep : Char → β}

theorem scanFrom_eq (n : Nat) (cs : List Char) :
    scanFrom rule keep n cs = scan rule keep (cs.drop n) := by
  induction cs generalizing n with
  | nil => simp [scan, scanFrom]
  | cons c cs ih =>
      cases n with
      | zero => rfl
      | succ n => exact ih n

theorem scan_cons_of_some {c : Char} {cs : List Char} {found : β} {covered : Nat}
    (h : rule (c :: cs) = some (found, covered)) :
    scan rule keep (c :: cs) = found :: scan rule keep (cs.drop (covered - 1)) := by
  rw [← scanFrom_eq]
  simp [scan, scanFrom, h]

theorem scan_cons_of_none {c : Char} {cs : List Char} (h : rule (c :: cs) = none) :
    scan rule keep (c :: cs) = keep c :: scan rule keep cs := by
  simp [scan, scanFrom, h]

/-- Induction along the reading of a text by a rule. -/
theorem scan_induction (rule : Rule β) {P : List Char → Prop} (nil : P [])
    (found : ∀ c cs x covered, rule (c :: cs) = some (x, covered) → P (cs.drop (covered - 1)) →
      P (c :: cs))
    (kept : ∀ c cs, rule (c :: cs) = none → P cs → P (c :: cs)) (cs : List Char) : P cs := by
  -- What a match covers may end anywhere further on, so every shorter text is at hand.
  induction hlength : cs.length using Nat.strong_induction_on generalizing cs with
  | _ n ih =>
      cases cs with
      | nil => exact nil
      | cons c cs =>
          rw [List.length_cons] at hlength
          cases hrule : rule (c :: cs) with
          | none => exact kept c cs hrule (ih cs.length (by omega) cs rfl)
          | some hit =>
              apply found c cs hit.1 hit.2 hrule
              apply ih _ _ _ rfl
              rw [List.length_drop]
              omega

end Rules

section Substitution

variable {rule : Rule (List Char)}

theorem substitute_cons_of_some {c : Char} {cs found : List Char} {covered : Nat}
    (h : rule (c :: cs) = some (found, covered)) :
    substitute rule (c :: cs) = found ++ substitute rule (cs.drop (covered - 1)) := by
  unfold substitute
  rw [scan_cons_of_some h, List.flatten_cons]

theorem substitute_cons_of_none {c : Char} {cs : List Char} (h : rule (c :: cs) = none) :
    substitute rule (c :: cs) = c :: substitute rule cs := by
  unfold substitute
  rw [scan_cons_of_none h, List.flatten_cons]
  rfl

/-- Where nothing can begin, all is kept. -/
theorem substitute_append_of_none {front : List Char} (h : ∀ c ∈ front, ∀ cs, rule (c :: cs) = none)
    (rest : List Char) : substitute rule (front ++ rest) = front ++ substitute rule rest := by
  induction front with
  | nil => rfl
  | cons c front ih =>
      obtain ⟨hc, hfront⟩ := List.forall_mem_cons.mp h
      rw [List.cons_append, substitute_cons_of_none (hc _), ih hfront, List.cons_append]

end Substitution

/-! ## Taking out a token -/

section Token

variable {token : List Char}

/-- The text with the token taken out wherever it is read from left to right. -/
def without (token cs : List Char) : List Char := substitute (literally token []) cs

theorem without_nil : without token [] = [] := rfl

theorem without_append (hne : token ≠ []) (rest : List Char) :
    without token (token ++ rest) = without token rest := by
  obtain ⟨t, ts, rfl⟩ := List.exists_cons_of_ne_nil hne
  have hfound : literally (t :: ts) ([] : List Char) (t :: (ts ++ rest)) =
      some ([], ts.length + 1) := by
    simp [literally]
  unfold without
  rw [List.cons_append, substitute_cons_of_some hfound]
  simp

theorem without_cons {c : Char} {cs : List Char} (h : ¬ token <+: c :: cs) :
    without token (c :: cs) = c :: without token cs := by
  have hnone : literally token ([] : List Char) (c :: cs) = none := by
    simp [literally, h]
  exact substitute_cons_of_none hnone

/-- A text is read as the token and the rest, or as a character that does not begin the token. -/
theorem without_induction (hne : token ≠ []) {P : List Char → Prop} (nil : P [])
    (found : ∀ rest, P rest → P (token ++ rest))
    (kept : ∀ c cs, ¬ token <+: c :: cs → P cs → P (c :: cs)) (cs : List Char) : P cs := by
  refine scan_induction (literally token ([] : List Char)) nil ?_ ?_ cs
  · intro c cs x covered hfound ih
    obtain ⟨t, ts, rfl⟩ := List.exists_cons_of_ne_nil hne
    simp only [literally, Option.ite_none_right_eq_some, Option.some.injEq, Prod.mk.injEq,
      List.isPrefixOf_iff_prefix] at hfound
    obtain ⟨⟨rest, hrest⟩, -, rfl⟩ := hfound
    obtain ⟨rfl, rfl⟩ := List.cons.inj hrest
    apply found
    simpa using ih
  · intro c cs hnone ih
    apply kept c cs _ ih
    simpa [literally] using hnone

/-- Nothing is taken out of a text without the token. -/
theorem without_eq_self {cs : List Char} (h : ¬ token <:+: cs) :
    without token cs = cs := by
  induction cs with
  | nil => exact without_nil
  | cons c cs ih =>
      rw [List.infix_cons_iff, not_or] at h
      rw [without_cons h.1, ih h.2]

theorem mem_of_mem_without (hne : token ≠ []) {c : Char} {cs : List Char}
    (h : c ∈ without token cs) : c ∈ cs := by
  induction cs using without_induction hne with
  | nil => exact h
  | found rest ih =>
      rw [without_append hne] at h
      exact List.mem_append_right _ (ih h)
  | kept d cs hd ih =>
      rw [without_cons hd, List.mem_cons] at h
      exact List.mem_cons.mpr (h.imp id ih)

theorem prefix_append_cons_iff {c : Char} (hc : c ∉ token) (front rest : List Char) :
    token <+: front ++ c :: rest ↔ token <+: front := by
  constructor
  · intro h
    -- Otherwise the token would reach the character.
    apply List.prefix_of_prefix_length_le h (List.prefix_append _ _)
    by_contra hlong
    have hreach : front ++ [c] <+: token := by
      apply List.prefix_of_prefix_length_le _ h
      · rw [List.length_append, List.length_singleton]
        omega
      · exact ⟨rest, by simp⟩
    exact hc (hreach.mem (by simp))
  · intro h
    exact h.trans (List.prefix_append _ _)

theorem infix_append_cons {c : Char} (hc : c ∉ token) {front rest : List Char}
    (h : token <:+: front ++ c :: rest) : token <:+: front ∨ token <:+: rest := by
  induction front with
  | nil =>
      rw [List.nil_append, List.infix_cons_iff] at h
      apply h.imp_left
      intro hbegins
      exact ((prefix_append_cons_iff hc [] rest).mp hbegins).isInfix
  | cons d front ih =>
      rw [List.cons_append, List.infix_cons_iff, ← List.cons_append] at h
      rcases h with hbegins | hinfix
      · exact .inl ((prefix_append_cons_iff hc _ rest).mp hbegins).isInfix
      · exact (ih hinfix).imp_left List.infix_cons

/-- A character that is not part of the token divides the text. -/
theorem without_append_cons (hne : token ≠ []) {c : Char} (hc : c ∉ token)
    (front rest : List Char) :
    without token (front ++ c :: rest) = without token front ++ c :: without token rest := by
  induction front using without_induction hne with
  | nil =>
      apply without_cons
      rw [← List.nil_append (c :: rest), prefix_append_cons_iff hc]
      simpa using hne
  | found front ih => rw [List.append_assoc, without_append hne, ih, without_append hne]
  | kept d front hd ih =>
      rw [without_cons hd, List.cons_append, List.cons_append, ← ih]
      apply without_cons
      rw [← List.cons_append, prefix_append_cons_iff hc]
      exact hd

end Token

end ArchGraph.Text
