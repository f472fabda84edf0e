import ArchGraph.Proofs.BestMatch
import Mathlib.Data.List.Find

/-!
Calls to an endpoint that has just their path. Such a call is always matched. A path scores as an
equal one also where it is the path of the call behind its first or its first two segments, so the
first endpoint in the list with one of these three paths is taken.

Segments are counted without a bound, so nine of them that agree at the end of two paths score as
much as an equal path does. `OnlyEqualPaths` sets this aside; it holds of all shorter paths
(`onlyEqualPaths_of_short`). What then is taken is not an equal path in general
(`exact_endpoint_passed_over`).
-/

namespace ArchGraph

namespace Text

theorem splitWhere_eq (p : Char → Bool) (cs : List Char) : splitWhere p cs = cs.splitOnP p := by
  induction cs with
  | nil => rw [List.splitOnP_nil, splitWhere]
  | cons c cs ih =>
      rw [List.splitOnP_cons_eq_if_modifyHead, splitWhere, ih]
      split
      · rfl
      · obtain ⟨piece, rest, hpieces⟩ := List.exists_cons_of_ne_nil (List.splitOnP_ne_nil p cs)
        rw [hpieces]
        rfl

/-- A cut divides the fields. -/
theorem fields_append_cons {p : Char → Bool} {c : Char} (hc : p c = true) (front rest : List Char) :
    fields p (front ++ c :: rest) = fields p front ++ fields p rest := by
  simp only [fields, splitWhere_eq]
  rw [List.splitOnP_append_cons front rest hc, List.filter_append]

/-- A text without cuts is one field. -/
theorem fields_eq_singleton {p : Char → Bool} {cs : List Char} (hne : cs ≠ [])
    (h : ∀ c ∈ cs, p c = false) : fields p cs = [cs] := by
  rw [fields, splitWhere_eq, List.splitOnP_eq_singleton h]
  simp [hne]

/-- No piece has a character at which the text is cut. -/
theorem of_mem_splitWhere {p : Char → Bool} {cs piece : List Char} (h : piece ∈ splitWhere p cs) :
    ∀ c ∈ piece, p c = false := by
  induction cs generalizing piece with
  | nil =>
      rw [List.mem_singleton.mp h]
      simp
  | cons d cs ih =>
      obtain ⟨first, rest, hpieces⟩ : ∃ first rest, splitWhere p cs = first :: rest :=
        List.exists_cons_of_ne_nil (splitWhere_eq p cs ▸ List.splitOnP_ne_nil p cs)
      unfold splitWhere at h
      rw [hpieces] at h ih
      split at h
      · rcases List.mem_cons.mp h with rfl | h
        · simp
        · exact ih h
      · rename_i hd
        rcases List.mem_cons.mp h with rfl | h
        · intro c hc
          rcases List.mem_cons.mp hc with rfl | hc
          · simpa using hd
          · exact ih List.mem_cons_self c hc
        · exact ih (List.mem_cons_of_mem _ h)

end Text

namespace Route

/-! ## Segments -/

theorem of_mem_segments {path s : List Char} (h : s ∈ segments path) : s ≠ [] ∧ '/' ∉ s := by
  obtain ⟨hmem, hne⟩ := List.mem_filter.mp h
  refine ⟨by simpa using hne, fun hslash => ?_⟩
  simpa using Text.of_mem_splitWhere hmem '/' hslash

/-- A path made of segments has just these. -/
theorem segments_ofSegments {parts : List (List Char)} (h : ∀ s ∈ parts, s ≠ [] ∧ '/' ∉ s) :
    segments (ofSegments parts) = parts := by
  have hkept : parts.filter (fun s => !s.isEmpty) = parts := by
    rw [List.filter_eq_self]
    intro s hs
    simpa using (h s hs).1
  have hsplit : Text.splitWhere (· == '/') (ofSegments parts) =
      [] :: Text.splitWhere (· == '/') (['/'].intercalate parts) := rfl
  unfold segments Text.fields
  rw [hsplit, List.filter_cons_of_neg (by simp), Text.splitWhere_eq]
  by_cases hnil : parts = []
  · subst hnil
    rfl
  · have hjoin := List.splitOn_intercalate '/' (fun s hs => (h s hs).2) hnil
    rw [List.splitOn] at hjoin
    rw [hjoin, hkept]

/-- The paths that a call may also be meant by: without its first segment, and without its first
two. -/
def shortened (path : List Char) : List (List Char) := (candidates path).tail

theorem mem_candidates {path c : List Char} : c ∈ candidates path ↔ c = path ∨ c ∈ shortened path :=
  List.mem_cons

theorem of_mem_shortened {path c : List Char} (h : c ∈ shortened path) :
    ∃ n, c = ofSegments ((segments path).drop n) := by
  have hcases :
      c ∈ (if 2 ≤ (segments path).length then [ofSegments ((segments path).drop 1)] else []) ++
      (if 3 ≤ (segments path).length then [ofSegments ((segments path).drop 2)] else []) := h
  rcases List.mem_append.mp hcases with h | h
  · split at h
    · exact ⟨1, List.mem_singleton.mp h⟩
    · cases h
  · split at h
    · exact ⟨2, List.mem_singleton.mp h⟩
    · cases h

/-- A candidate has no more segments than the path. -/
theorem length_segments_candidate {path c : List Char} (h : c ∈ candidates path) :
    (segments c).length ≤ (segments path).length := by
  rcases mem_candidates.mp h with rfl | h
  · exact Nat.le_refl _
  · obtain ⟨n, rfl⟩ := of_mem_shortened h
    rw [segments_ofSegments fun s hs => of_mem_segments (List.mem_of_mem_drop hs), List.length_drop]
    omega

theorem candidate_ne_nil {path c : List Char} (hpath : path ≠ []) (h : c ∈ candidates path) :
    c ≠ [] := by
  rcases mem_candidates.mp h with rfl | h
  · exact hpath
  · obtain ⟨n, rfl⟩ := of_mem_shortened h
    exact List.cons_ne_nil _ _

/-! ## Scores -/

theorem score_self (path : List Char) : score path path = exactScore := by
  simp [score]

theorem agreeing_le (ours theirs : List (List Char)) : agreeing ours theirs ≤ ours.length := by
  fun_induction agreeing ours theirs with
  | case1 _ restOurs _ _ _ ih => exact Nat.succ_le_succ ih
  | case2 => exact Nat.zero_le _
  | case3 => exact Nat.zero_le _

theorem trailingScore_le (candidate endpoint : List Char) :
    trailingScore candidate endpoint ≤ (segments candidate).length + 1 := by
  have hle := agreeing_le (segments candidate).reverse (segments endpoint).reverse
  rw [List.length_reverse] at hle
  unfold trailingScore
  dsimp only
  split <;> omega

/-- With fewer than nine segments, only an equal path scores ten. -/
theorem score_lt_exact {candidate endpoint : List Char} (hne : candidate ≠ endpoint)
    (hshort : (segments candidate).length < 9) : score candidate endpoint < exactScore := by
  have hle := trailingScore_le candidate endpoint
  unfold score exactScore patternScore callSuffixScore endpointSuffixScore
  rw [if_neg (by simpa using hne)]
  split
  · omega
  · split
    · omega
    · split <;> omega

end Route

namespace Matching

variable {verb : Option String} {path : List Char} {endpoints : List EndpointNode}

/-- No path scores as much as an equal one does by its last segments alone. -/
def OnlyEqualPaths (verb : Option String) (path : List Char)
    (endpoints : List EndpointNode) : Prop :=
  ∀ e ∈ endpoints, Route.verbsAgree verb e.verb = true → ∀ c ∈ Route.candidates path,
    Route.exactScore ≤ Route.score c (route e) → c = route e

theorem onlyEqualPaths_of_short (hshort : (Route.segments path).length < 9) :
    OnlyEqualPaths verb path endpoints := by
  intro e _ _ c hc hscore
  by_contra hne
  have hlength := Route.length_segments_candidate hc
  have hlt := Route.score_lt_exact hne (by omega)
  omega

/-- The verb of the endpoint agrees, and its path is a candidate of the call. -/
def named (verb : Option String) (path : List Char) (e : EndpointNode) : Bool :=
  Route.verbsAgree verb e.verb && (Route.candidates path).contains (route e)

theorem named_iff {e : EndpointNode} : named verb path e = true ↔
    Route.verbsAgree verb e.verb = true ∧ route e ∈ Route.candidates path := by
  rw [named, Bool.and_eq_true, List.contains_iff_mem]

theorem eligible_of_named (hpath : path ≠ []) {e : EndpointNode} (h : named verb path e = true) :
    eligible verb e = true := by
  obtain ⟨hverb, hroute⟩ := named_iff.mp h
  rw [eligible, hverb]
  simpa using Route.candidate_ne_nil hpath hroute

/-- Where only equal paths score ten, the endpoints that do are those with the path of a
candidate. -/
theorem attains_exact (hpath : path ≠ []) (honly : OnlyEqualPaths verb path endpoints)
    {e : EndpointNode} (he : e ∈ endpoints) :
    attains verb path Route.exactScore e = named verb path e := by
  rw [Bool.eq_iff_iff, attains, Bool.and_eq_true, List.contains_iff_mem]
  constructor
  · rintro ⟨hfit, hscore⟩
    have hverb := (Bool.and_eq_true_iff.mp hfit).1
    obtain ⟨c, hc, hten⟩ := List.mem_map.mp hscore
    obtain rfl := honly e he hverb c hc (Nat.le_of_eq hten.symm)
    exact named_iff.mpr ⟨hverb, hc⟩
  · intro hnamed
    refine ⟨eligible_of_named hpath hnamed, List.mem_map.mpr ⟨route e, ?_, Route.score_self _⟩⟩
    exact (named_iff.mp hnamed).2

theorem highest_eq_exact (honly : OnlyEqualPaths verb path endpoints)
    (hten : Route.exactScore ≤ highest verb path endpoints) :
    highest verb path endpoints = Route.exactScore := by
  refine Nat.le_antisymm (highest_le_iff.mpr fun e he hfit c hc => ?_) hten
  have hverb := (Bool.and_eq_true_iff.mp hfit).1
  by_contra hmore
  obtain rfl := honly e he hverb c hc (by omega)
  rw [Route.score_self] at hmore
  omega

/-- The first endpoint with the path of a candidate has the path of the call, if no endpoint before
one that has it has a shortened path. -/
theorem route_of_first_named {exact first : EndpointNode} {before after : List EndpointNode}
    (hfirst : (before ++ exact :: after).find? (named verb path) = some first)
    (hverb : Route.verbsAgree verb exact.verb = true) (hexact : route exact = path)
    (hfree : ∀ e ∈ before, Route.verbsAgree verb e.verb = true → route e ∉ Route.shortened path) :
    route first = path := by
  rw [List.find?_append, Option.or_eq_some_iff] at hfirst
  rcases hfirst with hbefore | ⟨_, hrest⟩
  · obtain ⟨hagrees, hroute⟩ := named_iff.mp (List.find?_some hbefore)
    rcases Route.mem_candidates.mp hroute with hsame | hshort
    · exact hsame
    · exact absurd hshort (hfree first (List.mem_of_find?_eq_some hbefore) hagrees)
  · have hnamed : named verb path exact = true :=
      named_iff.mpr ⟨hverb, Route.mem_candidates.mpr (.inl hexact)⟩
    rw [List.find?_cons_of_pos hnamed] at hrest
    rw [← Option.some.inj hrest]
    exact hexact

/-- **A call to an endpoint of just its path is matched.** As long as no path scores ten by its last
segments alone, and so for every path of fewer than nine segments, the endpoint is the first in the
list whose path is that of the call, or that of the call without its first or its first two
segments. So it is one of just the path of the call, unless a shortened path is listed before. -/
theorem exact_endpoint_matched (threshold : Int) (verb url : Option String)
    (endpoints : List EndpointNode) (exact : EndpointNode) (hpath : calledPath url ≠ [])
    (hlow : threshold ≤ 10) (hmem : exact ∈ endpoints)
    (hverb : Route.verbsAgree verb exact.verb = true) (hexact : route exact = calledPath url) :
    (find threshold verb url endpoints).resolved = true ∧
    10 ≤ (find threshold verb url endpoints).score ∧
    (OnlyEqualPaths verb (calledPath url) endpoints →
      (find threshold verb url endpoints).score = 10 ∧
      ∃ first, endpoints.find? (named verb (calledPath url)) = some first ∧
        (find threshold verb url endpoints).endpointId = some first.id ∧
        (find threshold verb url endpoints).matchedPath = some (String.ofList (route first)) ∧
        ∀ before after, endpoints = before ++ exact :: after →
          (∀ e ∈ before, Route.verbsAgree verb e.verb = true →
            route e ∉ Route.shortened (calledPath url)) →
          route first = calledPath url) ∧
    ((Route.segments (calledPath url)).length < 9 →
      OnlyEqualPaths verb (calledPath url) endpoints) := by
  have hanswer := @isFirstBest_find verb endpoints threshold url hpath
  have hnamed : named verb (calledPath url) exact = true :=
    named_iff.mpr ⟨hverb, Route.mem_candidates.mpr (.inl hexact)⟩
  have hten : Route.exactScore ≤ highest verb (calledPath url) endpoints := by
    have hle := highest_le_iff.mp (Nat.le_refl (highest verb (calledPath url) endpoints)) exact hmem
      (eligible_of_named hpath hnamed) _ (named_iff.mp hnamed).2
    rwa [Route.score_self] at hle
  have hresolved : (find threshold verb url endpoints).resolved = true := by
    rw [hanswer.resolved]
    unfold Route.exactScore at hten
    omega
  refine ⟨hresolved, ?_, fun honly => ?_, onlyEqualPaths_of_short⟩
  · rw [hanswer.score]
    exact_mod_cast hten
  · have hhigh := highest_eq_exact honly hten
    obtain ⟨first, c, hfirst, hcandidate, hid, hmatched⟩ := hanswer.chosen hresolved
    rw [hhigh] at hfirst hcandidate
    -- The highest score is ten, and having a score of ten is having the path of a candidate.
    rw [List.find?_congr fun e he => attains_exact hpath honly he] at hfirst
    have hagrees := (named_iff.mp (List.find?_some hfirst)).1
    have hscore := List.find?_some hcandidate
    rw [beq_iff_eq] at hscore
    obtain rfl : c = route first := honly first (List.mem_of_find?_eq_some hfirst) hagrees c
      (List.mem_of_find?_eq_some hcandidate) (Nat.le_of_eq hscore.symm)
    refine ⟨by rw [hanswer.score, hhigh]; rfl, first, hfirst, hid, hmatched, ?_⟩
    rintro before after rfl hfree
    exact route_of_first_named hfirst hverb hexact hfree

/-! ## Paths behind the name of a service -/

/-- A pattern, the path of the call, and the path behind the name of the service. -/
def pathAndShortened : List EndpointNode :=
  [getEndpoint "/shop/\x7bname\x7d", getEndpoint "/shop/orders", getEndpoint "/orders"]

theorem exact_endpoint_matched_pathAndShortened :
    calledPath (some "/shop/orders") ≠ [] ∧ (3 : Int) ≤ 10 ∧
    getEndpoint "/shop/orders" ∈ pathAndShortened ∧
    Route.verbsAgree (some "GET") (getEndpoint "/shop/orders").verb = true ∧
    route (getEndpoint "/shop/orders") = calledPath (some "/shop/orders") ∧
    (find 3 (some "GET") (some "/shop/orders") pathAndShortened).resolved = true ∧
    ∃ first ∈ pathAndShortened, route first = calledPath (some "/shop/orders") ∧
      (find 3 (some "GET") (some "/shop/orders") pathAndShortened).endpointId = some first.id := by
  obtain ⟨hresolved, _, hfirst, hshort⟩ :=
    exact_endpoint_matched 3 (some "GET") (some "/shop/orders")
    pathAndShortened (getEndpoint "/shop/orders") (by decide) (by decide) (by decide) (by decide)
    (by decide)
  obtain ⟨_, first, hfind, hid, _, hroute⟩ := hfirst (hshort (by decide))
  refine ⟨by decide, by decide, by decide, by decide, by decide, hresolved, first,
    List.mem_of_find?_eq_some hfind, ?_, hid⟩
  exact hroute [getEndpoint "/shop/\x7bname\x7d"] [getEndpoint "/orders"] rfl (by decide)

/-- A call is resolved, but not to an endpoint of just its path, although there is one. -/
def PassedOver (threshold : Int) (verb url : Option String)
    (endpoints : List EndpointNode) : Prop :=
  calledPath url ≠ [] ∧ threshold ≤ 10 ∧
  (∃ exact ∈ endpoints, Route.verbsAgree verb exact.verb = true ∧ route exact = calledPath url) ∧
  (find threshold verb url endpoints).resolved = true ∧
  ∀ e ∈ endpoints, (find threshold verb url endpoints).endpointId = some e.id →
    route e ≠ calledPath url

instance (threshold : Int) (verb url : Option String) (endpoints : List EndpointNode) :
    Decidable (PassedOver threshold verb url endpoints) :=
  inferInstanceAs (Decidable (_ ∧ _ ∧ (∃ exact ∈ endpoints, _) ∧ _ ∧ ∀ e ∈ endpoints, _))

/-- A shortened path that is listed before the path of the call is taken. So is, wherever it is
listed, a path of which ten segments at the end agree. -/
theorem exact_endpoint_passed_over :
    PassedOver 3 (some "GET") (some "/shop/orders")
      [getEndpoint "/orders", getEndpoint "/shop/orders"] ∧
    PassedOver 3 (some "GET") (some "/a/b/c/d/e/f/g/h/i/j/k")
      [getEndpoint "/a/b/c/d/e/f/g/h/i/j/k", getEndpoint "/other/b/c/d/e/f/g/h/i/j/k"] ∧
    (find 3 (some "GET") (some "/a/b/c/d/e/f/g/h/i/j/k")
      [getEndpoint "/a/b/c/d/e/f/g/h/i/j/k",
        getEndpoint "/other/b/c/d/e/f/g/h/i/j/k"]).score = 11 := by
  decide +kernel

end Matching

end ArchGraph
