import ArchGraph.Proofs.ComparablePaths
import Mathlib.Data.List.Forall2
import Mathlib.Order.Bounds.Basic

/-!
Scores read by segments. Two comparable paths are compared character by character in part, but every
comparison comes to one of their segments: they are equal just if their segments are, and one ends
in the other just if its segments are the last segments of the other (`suffix_iff_segments`). So no
score is given for an agreement that begins within a segment.

Where neither path ends in the other, the score counts the longest run of agreeing segments at the
end of both (`isGreatest_agreeing`).
-/

namespace ArchGraph.Route

/-! ## Agreeing segments -/

/-- A segment of the call agrees with the same one of the endpoint, and with any placeholder. -/
def Agrees (ours theirs : List Char) : Prop :=
  ours = theirs ∨ theirs.head? = some '\x7b' ∧ theirs.getLast? = some '\x7d'

/-- The last `n` segments of both paths agree, each with the one in the same place from the end. -/
def AgreeAtEnd (ours theirs : List (List Char)) (n : Nat) : Prop :=
  ∃ xs ys, xs <:+ ours ∧ ys <:+ theirs ∧ xs.length = n ∧ List.Forall₂ Agrees xs ys

theorem agrees_iff {ours theirs : List Char} :
    (ours == theirs || isPlaceholder theirs) = true ↔ Agrees ours theirs := by
  simp [Agrees, isPlaceholder]

/-- As many segments agree at the front as are counted. -/
theorem agreeing_front (ours theirs : List (List Char)) : ∃ xs ys, xs <+: ours ∧ ys <+: theirs ∧
    xs.length = agreeing ours theirs ∧ List.Forall₂ Agrees xs ys := by
  fun_induction agreeing ours theirs with
  | case1 o os t ts hagree ih =>
      obtain ⟨xs, ys, hxs, hys, hlength, hall⟩ := ih
      refine ⟨o :: xs, t :: ys, ?_, ?_, by simp [hlength], .cons (agrees_iff.mp hagree) hall⟩
      · exact List.cons_prefix_cons.mpr ⟨rfl, hxs⟩
      · exact List.cons_prefix_cons.mpr ⟨rfl, hys⟩
  | case2 => exact ⟨[], [], List.nil_prefix, List.nil_prefix, rfl, .nil⟩
  | case3 => exact ⟨[], [], List.nil_prefix, List.nil_prefix, rfl, .nil⟩

/-- No more segments agree at the front than are counted. -/
theorem length_le_agreeing {xs ys : List (List Char)} (hall : List.Forall₂ Agrees xs ys)
    {ours theirs : List (List Char)} (hxs : xs <+: ours) (hys : ys <+: theirs) :
    xs.length ≤ agreeing ours theirs := by
  induction hall generalizing ours theirs with
  | nil => exact Nat.zero_le _
  | cons hagree _ ih =>
      obtain ⟨restOurs, rfl⟩ := hxs
      obtain ⟨restTheirs, rfl⟩ := hys
      simp only [List.cons_append, agreeing, agrees_iff.mpr hagree, if_true, List.length_cons]
      apply Nat.succ_le_succ
      exact ih (List.prefix_append _ _) (List.prefix_append _ _)

/-- The count is the length of the longest run of agreeing segments at the end. -/
theorem isGreatest_agreeing (ours theirs : List (List Char)) :
    IsGreatest {n | AgreeAtEnd ours theirs n} (agreeing ours.reverse theirs.reverse) := by
  constructor
  · obtain ⟨xs, ys, hxs, hys, hlength, hall⟩ := agreeing_front ours.reverse theirs.reverse
    refine ⟨xs.reverse, ys.reverse, ?_, ?_, by simp [hlength], List.forall₂_reverse_iff.mpr hall⟩
    · simpa using List.reverse_suffix.mpr hxs
    · simpa using List.reverse_suffix.mpr hys
  · rintro n ⟨xs, ys, hxs, hys, rfl, hall⟩
    rw [← List.length_reverse]
    apply length_le_agreeing (List.forall₂_reverse_iff.mpr hall)
    · exact List.reverse_prefix.mpr hxs
    · exact List.reverse_prefix.mpr hys

/-! ## Paths and segments -/

theorem path_eq_iff_segments (u v : List Char) :
    Url.path u = Url.path v ↔ segments (Url.path u) = segments (Url.path v) := by
  constructor
  · intro h
    rw [h]
  · intro h
    rw [← Url.slashed_segments_path u, h, Url.slashed_segments_path]

/-- One path ends in another just if it does so by whole segments. -/
theorem suffix_iff_segments (u v : List Char) :
    Url.path v <:+ Url.path u ↔ segments (Url.path v) <:+ segments (Url.path u) := by
  constructor
  · rintro ⟨front, hfront⟩
    rw [← hfront]
    cases hparts : segments (Url.path v) with
    | nil => exact List.nil_suffix
    | cons s rest =>
        -- The second path begins with a slash, so the first one is cut between segments.
        have hslash : Url.path v = '/' :: (s ++ slashed rest) := by
          rw [← Url.slashed_segments_path v, hparts, slashed_cons]
        have hsegments : segments (s ++ slashed rest) = s :: rest := by
          rw [← segments_slash, ← hslash, hparts]
        rw [hslash, segments_append_slash, hsegments]
        exact List.suffix_append _ _
  · rintro ⟨front, hfront⟩
    refine ⟨slashed front, ?_⟩
    rw [← Url.slashed_segments_path u, ← hfront, slashed, slashed, List.flatMap_append]
    exact congrArg (slashed front ++ ·) (Url.slashed_segments_path v).symm

/-- **Scores go by segments.** Of two comparable paths, equal segments score ten, a pattern that
accepts eight, the last segments of the call seven and those of the endpoint five. Otherwise the
longest run of agreeing segments at the end is counted, from two on. So no path matches from the
middle of a segment, and a score is zero or at least three. -/
theorem score_by_segments (u v : List Char) :
    ∃ k, IsGreatest {n | AgreeAtEnd (segments (Url.path u)) (segments (Url.path v)) n} k ∧
    (score (Url.path u) (Url.path v) =
      if segments (Url.path u) = segments (Url.path v) then 10
      else if (Pattern.parse (Url.path v)).accepts (Url.path u) = true then 8
      else if segments (Url.path v) <:+ segments (Url.path u) then 7
      else if segments (Url.path u) <:+ segments (Url.path v) then 5
      else if 2 ≤ k then k + 1 else 0) ∧
    (Url.path v <:+ Url.path u ↔ segments (Url.path v) <:+ segments (Url.path u)) ∧
    (Url.path u <:+ Url.path v ↔ segments (Url.path u) <:+ segments (Url.path v)) ∧
    (score (Url.path u) (Url.path v) = 0 ∨ 3 ≤ score (Url.path u) (Url.path v)) := by
  refine ⟨_, isGreatest_agreeing _ _, ?_, suffix_iff_segments u v, suffix_iff_segments v u, ?_⟩
  · simp only [score, beq_iff_eq, List.isSuffixOf_iff_suffix, path_eq_iff_segments,
      suffix_iff_segments]
    rfl
  · unfold score trailingScore
    dsimp only [exactScore, patternScore, callSuffixScore, endpointSuffixScore]
    split_ifs <;> omega

end ArchGraph.Route
