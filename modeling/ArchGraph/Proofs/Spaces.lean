import ArchGraph.Service

/-!
The names of runs and of the spaces that their graphs are kept in. Every run gets an identifier of
its own (`Service.runId_injective`), and its space is that of no other run
(`candidateSpace_injective`) and of no baseline (`candidateSpace_ne_baselineSpace`), whatever the
projects are called.
-/

namespace ArchGraph

/-! ## Identifiers of runs -/

def hexAlphabet : List Char := "0123456789abcdef".toList

/-- The number that hexadecimal digits stand for. -/
def hexValue (cs : List Char) : Nat :=
  cs.foldl (fun value c => value * 16 + hexAlphabet.idxOf c) 0

theorem hexValue_concat (cs : List Char) (c : Char) :
    hexValue (cs ++ [c]) = hexValue cs * 16 + hexAlphabet.idxOf c := by
  unfold hexValue
  rw [List.foldl_append]
  rfl

theorem idxOf_digitChar {d : Nat} (h : d < 16) : hexAlphabet.idxOf (Nat.digitChar d) = d := by
  have every : ∀ d < 16, hexAlphabet.idxOf (Nat.digitChar d) = d := by decide
  exact every d h

theorem digitChar_mem {d : Nat} (h : d < 16) : Nat.digitChar d ∈ hexAlphabet := by
  have every : ∀ d < 16, Nat.digitChar d ∈ hexAlphabet := by decide
  exact every d h

theorem hexValue_toDigits (n : Nat) : hexValue (Nat.toDigits 16 n) = n := by
  induction n using Nat.strongRecOn with
  | ind n ih =>
      rw [Nat.toDigits_eq_if (by decide)]
      split
      · rename_i h
        have hone := hexValue_concat [] (Nat.digitChar n)
        rw [List.nil_append, idxOf_digitChar h] at hone
        rw [hone]
        exact Nat.zero_add n
      · have hless : n / 16 < n := by omega
        rw [hexValue_concat, ih _ hless, idxOf_digitChar (Nat.mod_lt _ (by decide))]
        omega

theorem toDigits_subset (n : Nat) : ∀ c ∈ Nat.toDigits 16 n, c ∈ hexAlphabet := by
  induction n using Nat.strongRecOn with
  | ind n ih =>
      rw [Nat.toDigits_eq_if (by decide)]
      split
      · rename_i h
        simpa using digitChar_mem h
      · have hless : n / 16 < n := by omega
        intro c hc
        rcases List.mem_append.mp hc with hc | hc
        · exact ih _ hless c hc
        · rw [List.mem_singleton.mp hc]
          exact digitChar_mem (Nat.mod_lt _ (by decide))

/-- Leading zeros do not count. -/
theorem hexValue_hexDigits (width n : Nat) : hexValue (Json.hexDigits width n) = n := by
  have hzeros : ∀ (k : Nat) (cs : List Char),
      hexValue (List.replicate k '0' ++ cs) = hexValue cs := by
    intro k cs
    induction k with
    | zero => rfl
    | succ k ih => exact ih
  unfold Json.hexDigits
  rw [hzeros, hexValue_toDigits]

theorem hexDigits_subset (width n : Nat) : ∀ c ∈ Json.hexDigits width n, c ∈ hexAlphabet := by
  intro c hc
  unfold Json.hexDigits at hc
  rcases List.mem_append.mp hc with hc | hc
  · rw [List.eq_of_mem_replicate hc]
    decide
  · exact toDigits_subset n c hc

/-- A text of hexadecimal digits, as the identifiers of runs are. -/
def IsHex (id : String) : Prop := ∀ c ∈ id.toList, c ∈ hexAlphabet

theorem IsHex.colon_notMem {id : String} (h : IsHex id) : ':' ∉ id.toList := by
  intro hmem
  have hdigit := h ':' hmem
  revert hdigit
  decide

theorem IsHex.ne_baseline {id : String} (h : IsHex id) : id.toList ≠ "baseline".toList := by
  intro heq
  have hdigit := h 'l' (by rw [heq]; decide)
  revert hdigit
  decide

namespace Service

/-- No two runs get the same identifier. -/
theorem runId_injective {m n : Nat} (h : runId m = runId n) : m = n := by
  have hdigits : Json.hexDigits 8 m = Json.hexDigits 8 n := String.ofList_inj.mp h
  rw [← hexValue_hexDigits 8 m, hdigits, hexValue_hexDigits]

theorem isHex_runId (n : Nat) : IsHex (runId n) := by
  intro c hc
  exact hexDigits_subset 8 n c (by simpa [runId] using hc)

end Service

/-! ## Spaces -/

/-- A text is split at its last colon in one way only. -/
theorem eq_of_append_colon {xs ys as bs : List Char} (has : ':' ∉ as) (hbs : ':' ∉ bs)
    (h : xs ++ ':' :: as = ys ++ ':' :: bs) : xs = ys ∧ as = bs := by
  rcases List.append_eq_append_iff.mp h with ⟨gap, hys, hgap⟩ | ⟨gap, hxs, hgap⟩
  · cases gap with
    | nil => simp_all
    | cons c gap =>
        have hin : ':' ∈ as := by
          rw [(List.cons.inj hgap).2]
          simp
        exact absurd hin has
  · cases gap with
    | nil => simp_all
    | cons c gap =>
        have hin : ':' ∈ bs := by
          rw [(List.cons.inj hgap).2]
          simp
        exact absurd hin hbs

theorem candidateSpace_toList (projectId id : String) :
    (candidateSpace projectId id).toList =
      (projectId.toList ++ "::candidate:".toList) ++ ':' :: id.toList := by
  unfold candidateSpace
  rw [String.toList_append, String.toList_append, List.append_assoc, List.append_assoc]
  rfl

/-- The space of a run tells which run it is, and of which project. -/
theorem eq_of_candidateSpace {p q a b : String} (ha : IsHex a) (hb : IsHex b)
    (h : candidateSpace p a = candidateSpace q b) : p = q ∧ a = b := by
  have htexts := congrArg String.toList h
  rw [candidateSpace_toList, candidateSpace_toList] at htexts
  obtain ⟨hproject, hid⟩ := eq_of_append_colon ha.colon_notMem hb.colon_notMem htexts
  exact ⟨String.toList_inj.mp (List.append_cancel_right hproject), String.toList_inj.mp hid⟩

theorem candidateSpace_injective {p q : String} {m n : Nat}
    (h : candidateSpace p (Service.runId m) = candidateSpace q (Service.runId n)) :
    p = q ∧ m = n := by
  obtain ⟨hproject, hid⟩ :=
    eq_of_candidateSpace (Service.isHex_runId m) (Service.isHex_runId n) h
  exact ⟨hproject, Service.runId_injective hid⟩

theorem baselineSpace_toList (projectId : String) :
    (baselineSpace projectId).toList = (projectId.toList ++ [':']) ++ ':' :: "baseline".toList := by
  unfold baselineSpace
  rw [String.toList_append, List.append_assoc]
  rfl

theorem baselineSpace_ne_empty (projectId : String) : baselineSpace projectId ≠ "" := by
  intro h
  have htexts := congrArg String.toList h
  rw [baselineSpace_toList] at htexts
  simp at htexts

theorem eq_of_baselineSpace {p q : String} (h : baselineSpace p = baselineSpace q) : p = q := by
  have htexts := congrArg String.toList h
  unfold baselineSpace at htexts
  rw [String.toList_append, String.toList_append] at htexts
  exact String.toList_inj.mp (List.append_cancel_right htexts)

/-- The space of a run is not that of a baseline. -/
theorem IsHex.candidateSpace_ne {id : String} (h : IsHex id) (p q : String) :
    candidateSpace p id ≠ baselineSpace q := by
  intro heq
  have htexts := congrArg String.toList heq
  rw [candidateSpace_toList, baselineSpace_toList] at htexts
  exact h.ne_baseline (eq_of_append_colon h.colon_notMem (by decide) htexts).2

theorem candidateSpace_ne_baselineSpace (p q : String) (n : Nat) :
    candidateSpace p (Service.runId n) ≠ baselineSpace q :=
  (Service.isHex_runId n).candidateSpace_ne p q

end ArchGraph
