import ArchGraph.Matching
import Mathlib.Data.List.Induction

/-!
The endpoint that an outbound call is matched with. All candidates of the call are scored against
all endpoints that it can be matched with; `highest` is the highest of these scores, and the first
endpoint that attains it is taken, with its first candidate that does.

* `FirstBest.better` is what one comparison keeps, and `firstBest_best` what the whole run finds;
* `find?_pairings` reads the first pairing of a score as the first endpoint and its first candidate;
* `match_is_first_best` is the result for a call, with what follows for another order of the
  endpoints and for another threshold.
-/

namespace ArchGraph.Matching

/-! ## The best of a list -/

/-- The first of the pairings of the highest score; none, if no pairing has a score. -/
inductive FirstBest (ps : List Pairing) : Option Pairing → Prop where
  | none (hzero : ∀ p ∈ ps, p.score = 0) : FirstBest ps none
  | some (before after : List Pairing) (p : Pairing) (hsplit : ps = before ++ p :: after)
      (hpos : 0 < p.score) (hbefore : ∀ q ∈ before, q.score < p.score)
      (hafter : ∀ q ∈ after, q.score ≤ p.score) : FirstBest ps (some p)

theorem FirstBest.le {ps : List Pairing} {b : Option Pairing} (h : FirstBest ps b) {q : Pairing}
    (hq : q ∈ ps) : q.score ≤ b.elim 0 (·.score) := by
  cases h with
  | none hzero => exact Nat.le_of_eq (hzero q hq)
  | some before after p hsplit _ hbefore hafter =>
      rw [hsplit, List.mem_append, List.mem_cons] at hq
      rcases hq with hq | rfl | hq
      · exact Nat.le_of_lt (hbefore q hq)
      · exact Nat.le_refl _
      · exact hafter q hq

/-- One more comparison keeps the first of the best. -/
theorem FirstBest.better {ps : List Pairing} {b : Option Pairing} (h : FirstBest ps b)
    (p : Pairing) :
    FirstBest (ps ++ [p]) (better b p) := by
  unfold Matching.better
  split
  · rename_i hlt
    exact .some ps [] p rfl (Nat.zero_lt_of_lt hlt) (fun q hq => Nat.lt_of_le_of_lt (h.le hq) hlt)
      (by simp)
  · rename_i hle
    cases h with
    | none hzero =>
        refine .none fun q hq => ?_
        rcases List.mem_append.mp hq with hq | hq
        · exact hzero q hq
        · rw [List.mem_singleton.mp hq]
          simpa using hle
    | some before after first hsplit hpos hbefore hafter =>
        refine .some before (after ++ [p]) first (by simp [hsplit]) hpos hbefore fun q hq => ?_
        rcases List.mem_append.mp hq with hq | hq
        · exact hafter q hq
        · rw [List.mem_singleton.mp hq]
          exact Nat.le_of_not_lt hle

theorem firstBest_best (ps : List Pairing) : FirstBest ps (best ps) := by
  -- What is kept depends on all pairings so far, so the induction takes the last one off.
  induction ps using List.reverseRecOn with
  | nil => exact .none (by simp)
  | append_singleton ps p ih =>
      unfold best at ih ⊢
      rw [List.foldl_append]
      exact ih.better p

theorem FirstBest.max_scores {ps : List Pairing} {b : Option Pairing} (h : FirstBest ps b) :
    (ps.map (·.score)).max?.getD 0 = b.elim 0 (·.score) := by
  cases hmax : (ps.map (·.score)).max? with
  | none =>
      obtain rfl := List.map_eq_nil_iff.mp (List.max?_eq_none_iff.mp hmax)
      cases h with
      | none => rfl
      | some before after p hsplit => simp at hsplit
  | some top =>
      obtain ⟨hmem, htop⟩ := List.max?_eq_some_iff.mp hmax
      obtain ⟨q, hq, rfl⟩ := List.mem_map.mp hmem
      apply Nat.le_antisymm (h.le hq)
      cases h with
      | none => exact Nat.zero_le _
      | some before after p hsplit =>
          exact htop _ (List.mem_map_of_mem (hsplit ▸ List.mem_append_right _ List.mem_cons_self))

/-! ## The scores of a call -/

/-- The comparable path of the address that is called. -/
def calledPath (url : Option String) : List Char := Url.path (url.getD "").toList

/-- The comparable path of an endpoint. -/
def route (e : EndpointNode) : List Char := Url.path e.path.toList

/-- A call can be matched with endpoints that have a path and whose verb agrees. -/
def eligible (verb : Option String) (e : EndpointNode) : Bool :=
  Route.verbsAgree verb e.verb && !(route e).isEmpty

/-- The scores of the candidates of a call against one endpoint. -/
def scoresWith (path : List Char) (e : EndpointNode) : List Nat :=
  (Route.candidates path).map (Route.score · (route e))

/-- The highest score of a call, zero if there is no endpoint it can be matched with. -/
def highest (verb : Option String) (path : List Char) (endpoints : List EndpointNode) : Nat :=
  ((endpoints.filter (eligible verb)).flatMap (scoresWith path)).max?.getD 0

/-- Some candidate of the call has the score against the endpoint. -/
def attains (verb : Option String) (path : List Char) (score : Nat) (e : EndpointNode) : Bool :=
  eligible verb e && (scoresWith path e).contains score

variable {verb : Option String} {path : List Char} {endpoints : List EndpointNode}

theorem pairingsWith_eq (e : EndpointNode) : pairingsWith verb path e =
    if eligible verb e then
      (Route.candidates path).map (fun c => ⟨e, c, Route.score c (route e)⟩) else [] := rfl

theorem scores_pairings : (pairings verb path endpoints).map (·.score) =
    (endpoints.filter (eligible verb)).flatMap (scoresWith path) := by
  unfold pairings
  induction endpoints with
  | nil => rfl
  | cons e es ih =>
      rw [List.flatMap_cons, List.map_append, ih, pairingsWith_eq, List.filter_cons]
      split
      · rw [List.flatMap_cons, List.map_map]
        rfl
      · rfl

theorem highest_eq : highest verb path endpoints =
    (best (pairings verb path endpoints)).elim 0 (·.score) := by
  unfold highest
  rw [← scores_pairings]
  exact (firstBest_best _).max_scores

theorem highest_le_iff {n : Nat} : highest verb path endpoints ≤ n ↔
    ∀ e ∈ endpoints, eligible verb e = true → ∀ c ∈ Route.candidates path,
      Route.score c (route e) ≤ n := by
  have hscores : (∀ s ∈ (endpoints.filter (eligible verb)).flatMap (scoresWith path), s ≤ n) ↔
      ∀ e ∈ endpoints, eligible verb e = true → ∀ c ∈ Route.candidates path,
        Route.score c (route e) ≤ n := by
    simp only [scoresWith, List.mem_flatMap, List.mem_filter, List.mem_map]
    constructor
    · intro h e he hfit c hc
      exact h _ ⟨e, ⟨he, hfit⟩, c, hc, rfl⟩
    · rintro h _ ⟨e, ⟨he, hfit⟩, c, hc, rfl⟩
      exact h e he hfit c hc
  rw [← hscores, highest]
  cases hmax : ((endpoints.filter (eligible verb)).flatMap (scoresWith path)).max? with
  | none =>
      rw [List.max?_eq_none_iff.mp hmax]
      simp
  | some top => exact List.max?_le_iff hmax

/-- The order of the endpoints makes no difference to the highest score. -/
theorem highest_perm {listed : List EndpointNode} (h : listed.Perm endpoints) :
    highest verb path listed = highest verb path endpoints := by
  apply Nat.le_antisymm
  · rw [highest_le_iff]
    intro e he
    exact highest_le_iff.mp (Nat.le_refl _) e (h.mem_iff.mp he)
  · rw [highest_le_iff]
    intro e he
    exact highest_le_iff.mp (Nat.le_refl _) e (h.mem_iff.mpr he)

theorem attains_eq (score : Nat) (e : EndpointNode) : attains verb path score e =
    (eligible verb e &&
      ((Route.candidates path).find? (Route.score · (route e) == score)).isSome) := by
  unfold attains scoresWith
  congr 1
  rw [Bool.eq_iff_iff, List.contains_iff_mem, List.mem_map, List.find?_isSome]
  simp only [beq_iff_eq]

/-- The first pairing of a score is the first endpoint that attains it, with its first candidate
that does. -/
theorem find?_pairings (score : Nat) :
    (pairings verb path endpoints).find? (·.score == score) =
      (endpoints.find? (attains verb path score)).bind (fun e =>
        ((Route.candidates path).find? (Route.score · (route e) == score)).map (fun c =>
          ⟨e, c, Route.score c (route e)⟩)) := by
  unfold pairings
  induction endpoints with
  | nil => rfl
  | cons e es ih =>
      rw [List.flatMap_cons, List.find?_append, ih, pairingsWith_eq, List.find?_cons, attains_eq]
      cases eligible verb e with
      | false => rfl
      | true =>
          rw [if_pos rfl, List.find?_map, Bool.true_and]
          simp only [Function.comp_def]
          -- Only an endpoint with a candidate of the score ends the search on either side.
          cases hc : (Route.candidates path).find? (Route.score · (route e) == score) with
          | none => rfl
          | some c =>
              simp only [Option.isSome_some, Option.bind_some, hc]
              rfl

/-- The pairing that is found has the highest score, and is the first that has it. -/
theorem best_eq_some {p : Pairing} (h : best (pairings verb path endpoints) = some p) :
    0 < p.score ∧ highest verb path endpoints = p.score ∧
      endpoints.find? (attains verb path p.score) = some p.endpoint ∧
      (Route.candidates path).find? (Route.score · (route p.endpoint) == p.score) =
        some p.candidate := by
  have hbest := firstBest_best (pairings verb path endpoints)
  have hhigh := @highest_eq verb path endpoints
  rw [h] at hbest hhigh
  cases hbest with
  | some before after _ hsplit hpos hbefore hafter =>
      have hfirst : (pairings verb path endpoints).find? (·.score == p.score) = some p := by
        rw [List.find?_eq_some_iff_append]
        refine ⟨beq_self_eq_true _, before, after, hsplit, fun q hq => ?_⟩
        simpa using Nat.ne_of_lt (hbefore q hq)
      rw [find?_pairings] at hfirst
      obtain ⟨e, he, hmap⟩ := Option.bind_eq_some_iff.mp hfirst
      obtain ⟨c, hc, rfl⟩ := Option.map_eq_some_iff.mp hmap
      exact ⟨hpos, hhigh, he, hc⟩

/-! ## The answer -/

/-- An answer names the first best endpoint, if it is good enough. -/
structure IsFirstBest (threshold : Int) (verb : Option String) (path : List Char)
    (endpoints : List EndpointNode) (m : Matching) : Prop where
  score : m.score = highest verb path endpoints
  resolved : m.resolved = true ↔
    0 < highest verb path endpoints ∧ threshold ≤ highest verb path endpoints
  chosen : m.resolved = true → ∃ e c,
    endpoints.find? (attains verb path (highest verb path endpoints)) = some e ∧
    (Route.candidates path).find?
      (Route.score · (route e) == highest verb path endpoints) = some c ∧
    m.endpointId = some e.id ∧ m.matchedPath = some (String.ofList c)
  unresolved : m.resolved = false → m.endpointId = none ∧ m.matchedPath = none

theorem isFirstBest_find (threshold : Int) {url : Option String} (hpath : calledPath url ≠ []) :
    IsFirstBest threshold verb (calledPath url) endpoints (find threshold verb url endpoints) := by
  have hhigh := @highest_eq verb (calledPath url) endpoints
  have hempty : (Url.path (url.getD "").toList).isEmpty = false := by simpa [calledPath] using hpath
  unfold find
  dsimp only
  rw [hempty, if_neg Bool.false_ne_true]
  split
  · rename_i hnone
    rw [← calledPath] at hnone
    rw [hnone, Option.elim_none] at hhigh
    refine ⟨by simp [hhigh], by simp [hhigh], by simp, fun _ => ⟨rfl, rfl⟩⟩
  · rename_i p hsome
    rw [← calledPath] at hsome
    obtain ⟨hpos, hscore, hendpoint, hcandidate⟩ := best_eq_some hsome
    split
    · rename_i hlow
      refine ⟨by simp [hscore], ?_, by simp, fun _ => ⟨rfl, rfl⟩⟩
      rw [hscore]
      simp only [Bool.false_eq_true, false_iff, not_and]
      omega
    · rename_i hreached
      refine ⟨by simp [hscore], ?_, fun _ => ?_, by simp⟩
      · rw [hscore]
        exact ⟨fun _ => ⟨hpos, by omega⟩, fun _ => rfl⟩
      · exact ⟨p.endpoint, p.candidate, hscore ▸ hendpoint, hscore ▸ hcandidate, rfl, rfl⟩

theorem find_of_noPath (threshold : Int) {url : Option String} (hpath : calledPath url = []) :
    find threshold verb url endpoints =
      ⟨false, 0, none, none, (Url.service? (url.getD "").toList).map String.ofList,
        some noPathReason⟩ := by
  unfold calledPath at hpath
  unfold find
  dsimp only
  rw [hpath]
  rfl

/-- A higher threshold changes nothing as long as it is reached. -/
theorem find_raised {threshold higher : Int} (hle : threshold ≤ higher) {url : Option String}
    (h : (find higher verb url endpoints).resolved = true) :
    find higher verb url endpoints = find threshold verb url endpoints := by
  unfold find at h ⊢
  dsimp only at h ⊢
  split at h
  · cases h
  · rename_i hpath
    rw [if_neg hpath, if_neg hpath]
    split at h
    · cases h
    · split at h
      · cases h
      · rename_i hreached
        rw [if_neg hreached, if_neg (by omega)]

/-- **The first best endpoint is returned.** A call without a path is not matched. Any other gets
the highest score, and if that is above zero and reaches the threshold, the first endpoint that
attains it. So the order of the endpoints decides among equals only, and a higher threshold can only
reject. -/
theorem match_is_first_best (threshold : Int) (verb url : Option String)
    (endpoints : List EndpointNode) :
    (calledPath url = [] → (find threshold verb url endpoints).resolved = false ∧
      (find threshold verb url endpoints).score = 0 ∧
      (find threshold verb url endpoints).endpointId = none) ∧
    (calledPath url ≠ [] →
      IsFirstBest threshold verb (calledPath url) endpoints (find threshold verb url endpoints)) ∧
    (∀ listed, listed.Perm endpoints →
      (find threshold verb url listed).score = (find threshold verb url endpoints).score ∧
      (find threshold verb url listed).resolved = (find threshold verb url endpoints).resolved) ∧
    (∀ higher, threshold ≤ higher →
      (find higher verb url endpoints).score = (find threshold verb url endpoints).score ∧
      ((find higher verb url endpoints).resolved = true →
        find higher verb url endpoints = find threshold verb url endpoints)) := by
  refine ⟨?_, isFirstBest_find threshold, ?_, ?_⟩
  · intro hpath
    rw [find_of_noPath threshold hpath]
    exact ⟨rfl, rfl, rfl⟩
  · intro listed hperm
    by_cases hpath : calledPath url = []
    · rw [find_of_noPath threshold hpath, find_of_noPath threshold hpath]
      exact ⟨rfl, rfl⟩
    · have hlisted := @isFirstBest_find verb listed threshold url hpath
      have hgiven := @isFirstBest_find verb endpoints threshold url hpath
      rw [hlisted.score, hgiven.score, Bool.eq_iff_iff, hlisted.resolved, hgiven.resolved,
        highest_perm hperm]
      exact ⟨rfl, Iff.rfl⟩
  · intro higher hle
    refine ⟨?_, find_raised hle⟩
    by_cases hpath : calledPath url = []
    · rw [find_of_noPath higher hpath, find_of_noPath threshold hpath]
    · rw [(isFirstBest_find higher hpath).score, (isFirstBest_find threshold hpath).score]

def getEndpoint (path : String) : EndpointNode :=
  ⟨"endpoint:GET:" ++ path, some "GET", path, "Orders", none, none⟩

/-- Two patterns that accept the call behind the name of its service, after a path that only ends
alike. -/
def alikePatterns : List EndpointNode :=
  [getEndpoint "/v1/orders/5", getEndpoint "/orders/\x7bid\x7d", getEndpoint "/orders/\x7bkey\x7d"]

def orderAddress : Option String := some "http://gw/shop/orders/5?full=1"

theorem match_is_first_best_alikePatterns :
    calledPath orderAddress ≠ [] ∧
    IsFirstBest 3 (some "GET") (calledPath orderAddress) alikePatterns
      (find 3 (some "GET") orderAddress alikePatterns) ∧
    (find 3 (some "GET") orderAddress alikePatterns).score = 8 ∧
    (find 3 (some "GET") orderAddress alikePatterns).endpointId =
      some (getEndpoint "/orders/\x7bid\x7d").id :=
  ⟨by decide, (match_is_first_best 3 (some "GET") orderAddress alikePatterns).2.1 (by decide),
    by decide, by decide⟩

end ArchGraph.Matching
