import ArchGraph.Proofs.OutboundCalls
import ArchGraph.Proofs.BestMatch
import Mathlib.Data.List.Nodup

/-!
Calls matched in round after round, each against endpoints of its own. The first match stands:
whatever endpoints come later, the call keeps the endpoint it was led to. Until then nothing of it
changes but the service that its address names, and that is known after the first round.

* `resolve_of_resolved`, `resolve_of_unmatched` and `resolve_of_matched` say what one round does;
* `history_of_resolved`, `history_unmatched` and `history_settled` follow it through the later
  rounds;
* `first_match_stands` puts them together.
-/

namespace ArchGraph

namespace Matching

variable {threshold : Int} {verb url : Option String} {endpoints : List EndpointNode}

/-- The endpoint that an answer names, looked up by its identifier. -/
def target? (m : Matching) (endpoints : List EndpointNode) : Option EndpointNode :=
  m.endpointId.bind (fun id => endpoints.find? (·.id = id))

/-- The service that an address names. -/
def serviceOf (url : Option String) : Option String :=
  (Url.service? (url.getD "").toList).map String.ofList

/-- The first endpoint with the highest score. -/
def favourite? (verb url : Option String) (endpoints : List EndpointNode) : Option EndpointNode :=
  endpoints.find? (attains verb (calledPath url) (highest verb (calledPath url) endpoints))

theorem find_resolved (h : (find threshold verb url endpoints).resolved = true) :
    threshold ≤ (find threshold verb url endpoints).score ∧
    ∃ e ∈ endpoints, favourite? verb url endpoints = some e ∧
      (find threshold verb url endpoints).endpointId = some e.id := by
  by_cases hpath : calledPath url = []
  · rw [find_of_noPath threshold hpath] at h
    cases h
  · have hanswer := @isFirstBest_find verb endpoints threshold url hpath
    obtain ⟨e, c, he, -, hid, -⟩ := hanswer.chosen h
    rw [hanswer.score]
    exact ⟨(hanswer.resolved.mp h).2, e, List.mem_of_find?_eq_some he, he, hid⟩

theorem find_unresolved (h : (find threshold verb url endpoints).resolved = false) :
    (find threshold verb url endpoints).endpointId = none := by
  by_cases hpath : calledPath url = []
  · rw [find_of_noPath threshold hpath]
  · exact ((isFirstBest_find threshold hpath).unresolved h).1

/-- The endpoint of a match is always found again. -/
theorem exists_target (h : (find threshold verb url endpoints).resolved = true) :
    ∃ e ∈ endpoints, (find threshold verb url endpoints).target? endpoints = some e := by
  obtain ⟨-, e, he, -, hid⟩ := find_resolved h
  have hfound : (endpoints.find? (·.id = e.id)).isSome = true := by
    rw [List.find?_isSome]
    exact ⟨e, he, by simp⟩
  obtain ⟨found, hfind⟩ := Option.isSome_iff_exists.mp hfound
  exact ⟨found, List.mem_of_find?_eq_some hfind, by simpa [target?, hid] using hfind⟩

/-- Where no two endpoints share an identifier, it is the favourite that is found. -/
theorem favourite_of_target (hids : (endpoints.map (·.id)).Nodup) {e : EndpointNode}
    (h : (find threshold verb url endpoints).resolved = true)
    (htarget : (find threshold verb url endpoints).target? endpoints = some e) :
    favourite? verb url endpoints = some e := by
  obtain ⟨-, first, hfirst, hfavourite, hid⟩ := find_resolved h
  rw [target?, hid, Option.bind_some] at htarget
  have hsame : e.id = first.id := by simpa using List.find?_some htarget
  rw [hfavourite, List.inj_on_of_nodup_map hids (List.mem_of_find?_eq_some htarget) hfirst hsame]

end Matching

namespace ExternalCallNode

open Matching

variable {threshold : Int} {c : ExternalCallNode} {endpoints : List EndpointNode}

/-! ## One round -/

theorem resolve_of_resolved (h : c.resolved = true) :
    c.resolve threshold endpoints = (none, c) := by
  simp [resolve, h]

theorem answer_of_unresolved (h : c.resolved = false) :
    (c.resolve threshold endpoints).1 = some (find threshold c.verb c.url endpoints) := by
  unfold resolve
  rw [h, if_neg Bool.false_ne_true]
  dsimp only
  split <;> rfl

theorem resolve_of_unmatched (h : c.resolved = false)
    (hmatch : (find threshold c.verb c.url endpoints).resolved = false) :
    c.resolve threshold endpoints =
      (some (find threshold c.verb c.url endpoints), c.noteService (serviceOf c.url)) := by
  simp [resolve, h, find_unresolved hmatch, service_find, serviceOf]

theorem resolve_of_matched (h : c.resolved = false)
    (hmatch : (find threshold c.verb c.url endpoints).resolved = true) :
    ∃ e ∈ endpoints, (find threshold c.verb c.url endpoints).target? endpoints = some e ∧
      c.resolve threshold endpoints =
        (some (find threshold c.verb c.url endpoints),
          (c.noteService (serviceOf c.url)).lead (find threshold c.verb c.url endpoints) e) := by
  obtain ⟨e, he, htarget⟩ := exists_target hmatch
  refine ⟨e, he, htarget, ?_⟩
  rw [target?] at htarget
  simp [resolve, h, htarget, service_find, serviceOf]

theorem noteService_noteService (c : ExternalCallNode) (service : Option String) :
    (c.noteService service).noteService service = c.noteService service := by
  simp [noteService, Option.or_assoc]

/-! ## Round after round -/

/-- A round: the endpoints that are tried, the answer, and the call as it is left. -/
structure Round where
  endpoints : List EndpointNode
  answer : Option Matching
  call : ExternalCallNode

/-- A call matched against each list of endpoints in turn. -/
def history (threshold : Int) : ExternalCallNode → List (List EndpointNode) → List Round
  | _, [] => []
  | c, endpoints :: lists =>
      ⟨endpoints, (c.resolve threshold endpoints).1, (c.resolve threshold endpoints).2⟩ ::
        history threshold (c.resolve threshold endpoints).2 lists

/-- The call as the last round leaves it. -/
def afterRounds (threshold : Int) (c : ExternalCallNode) (lists : List (List EndpointNode)) :
    ExternalCallNode :=
  ((history threshold c lists).getLast?.map (·.call)).getD c

/-- The endpoint of a match can be looked up, so that there is something to record. -/
def Round.Recordable (r : Round) : Prop :=
  ∀ m, r.answer = some m → m.resolved = true → ∃ e, m.target? r.endpoints = some e

/-- A call that has its endpoint is left alone. -/
theorem history_of_resolved (h : c.resolved = true) (lists : List (List EndpointNode)) :
    ∀ r ∈ history threshold c lists, r.answer = none ∧ r.call = c := by
  induction lists with
  | nil => simp [history]
  | cons endpoints lists ih =>
      simp only [history, resolve_of_resolved h, List.mem_cons]
      rintro r (rfl | hr)
      · exact ⟨rfl, rfl⟩
      · exact ih r hr

theorem resolve_verb_url (c : ExternalCallNode) : (c.resolve threshold endpoints).2.verb = c.verb ∧
    (c.resolve threshold endpoints).2.url = c.url := by
  unfold resolve
  split
  · exact ⟨rfl, rfl⟩
  · dsimp only
    split <;> exact ⟨rfl, rfl⟩

/-- In every round the call is matched as it was at the beginning, or not at all. -/
theorem answer_of_mem_history {lists : List (List EndpointNode)} {r : Round}
    (hr : r ∈ history threshold c lists) :
    r.answer = none ∨ r.answer = some (find threshold c.verb c.url r.endpoints) := by
  induction lists generalizing c with
  | nil => simp [history] at hr
  | cons endpoints lists ih =>
      rw [history, List.mem_cons] at hr
      rcases hr with rfl | hr
      · by_cases hresolved : c.resolved = true
        · simp [resolve_of_resolved hresolved]
        · exact .inr (answer_of_unresolved (Bool.not_eq_true _ ▸ hresolved))
      · obtain ⟨hverb, hurl⟩ := @resolve_verb_url threshold endpoints c
        simpa [hverb, hurl] using ih hr

theorem recordable_of_mem_history {lists : List (List EndpointNode)} {r : Round}
    (hr : r ∈ history threshold c lists) : r.Recordable := by
  intro m hanswer hresolved
  rcases answer_of_mem_history hr with hnone | hsome
  · simp [hnone] at hanswer
  · obtain rfl : m = find threshold c.verb c.url r.endpoints := by simpa [hanswer] using hsome
    obtain ⟨e, -, htarget⟩ := exists_target hresolved
    exact ⟨e, htarget⟩

/-- As long as nothing matches, the call only comes to know its service, and that in the first
round. -/
theorem history_unmatched (h : c.resolved = false) {lists : List (List EndpointNode)}
    (hnone : ∀ r ∈ history threshold c lists, ∀ m, r.answer = some m → m.resolved = false) :
    ∀ r ∈ history threshold c lists, r.call = c.noteService (serviceOf c.url) := by
  induction lists generalizing c with
  | nil => simp [history]
  | cons endpoints lists ih =>
      have hmatch : (find threshold c.verb c.url endpoints).resolved = false := by
        apply hnone _ List.mem_cons_self
        exact answer_of_unresolved h
      have hrest := fun r hr => hnone r (List.mem_cons_of_mem _ hr)
      simp only [history, resolve_of_unmatched h hmatch, List.mem_cons] at hrest ⊢
      rintro r (rfl | hr)
      · rfl
      · have hlater := @ih (c.noteService (serviceOf c.url)) h hrest r hr
        exact hlater.trans (noteService_noteService c _)

/-- The round that leads the call to one of its endpoints, the favourite if identifiers tell the
endpoints apart. -/
structure Settles (threshold : Int) (c : ExternalCallNode) (r : Round) (m : Matching) : Prop where
  reached : threshold ≤ m.score
  leads : ∃ e ∈ r.endpoints,
    r.call = { c with
      resolved := true
      targetEndpointId := some e.id
      targetComponent := some e.componentName
      targetHandler := e.handlerMethodName
      targetService := c.targetService.or (serviceOf c.url)
      reason := m.reason
      score := m.score } ∧
    ((r.endpoints.map (·.id)).Nodup → favourite? c.verb c.url r.endpoints = some e)

/-- The first round settles the call, if it brings a match. -/
theorem settles_first (h : c.resolved = false)
    (hmatch : (find threshold c.verb c.url endpoints).resolved = true) :
    Settles threshold c
      ⟨endpoints, (c.resolve threshold endpoints).1, (c.resolve threshold endpoints).2⟩
      (find threshold c.verb c.url endpoints) := by
  obtain ⟨e, he, htarget, hresolve⟩ := resolve_of_matched h hmatch
  refine ⟨(find_resolved hmatch).1, e, he, ?_, ?_⟩
  · rw [hresolve]
    rfl
  · intro hids
    exact favourite_of_target hids hmatch htarget

/-- What settles a call that knows its service settles the call. -/
theorem Settles.of_noteService {r : Round} {m : Matching}
    (h : Settles threshold (c.noteService (serviceOf c.url)) r m) : Settles threshold c r m := by
  obtain ⟨hreached, e, he, hcall, hfavourite⟩ := h
  refine ⟨hreached, e, he, ?_, hfavourite⟩
  rw [hcall]
  simp [noteService, Option.or_assoc]

/-- A round with a match settles the call, and later rounds leave it alone. -/
theorem history_settled (h : c.resolved = false) {lists : List (List EndpointNode)}
    {earlier later : List Round} {r : Round} {m : Matching}
    (hsplit : history threshold c lists = earlier ++ r :: later) (hanswer : r.answer = some m)
    (hresolved : m.resolved = true) :
    Settles threshold c r m ∧ ∀ l ∈ later, l.answer = none ∧ l.call = r.call := by
  -- The rounds before the match are taken off one by one; none of them can have had a match.
  induction lists generalizing c earlier with
  | nil => simp [history] at hsplit
  | cons endpoints lists ih =>
      by_cases hmatch : (find threshold c.verb c.url endpoints).resolved = true
      · obtain ⟨e, -, -, hresolve⟩ := resolve_of_matched h hmatch
        have hled : (c.resolve threshold endpoints).2.resolved = true := by
          rw [hresolve]
          rfl
        have hkept := @history_of_resolved threshold _ hled lists
        rw [history] at hsplit
        cases earlier with
        | nil =>
            obtain ⟨rfl, rfl⟩ := List.cons.inj hsplit
            obtain rfl : find threshold c.verb c.url endpoints = m := by
              simpa [hresolve] using hanswer
            exact ⟨settles_first h hmatch, hkept⟩
        | cons first earlier =>
            have hlate := hkept r (by simp [(List.cons.inj hsplit).2])
            simp [hlate.1] at hanswer
      · rw [Bool.not_eq_true] at hmatch
        rw [history, resolve_of_unmatched h hmatch] at hsplit
        cases earlier with
        | nil =>
            obtain ⟨rfl, -⟩ := List.cons.inj hsplit
            obtain rfl : find threshold c.verb c.url endpoints = m := by simpa using hanswer
            simp [hresolved] at hmatch
        | cons first earlier =>
            obtain ⟨hsettles, hkept⟩ :=
              ih (c := c.noteService (serviceOf c.url)) h (List.cons.inj hsplit).2
            exact ⟨hsettles.of_noteService, hkept⟩

theorem afterRounds_of_settled {lists : List (List EndpointNode)} {earlier later : List Round}
    {r : Round} (hsplit : history threshold c lists = earlier ++ r :: later)
    (hkept : ∀ l ∈ later, l.answer = none ∧ l.call = r.call) :
    afterRounds threshold c lists = r.call := by
  rw [afterRounds, hsplit, List.getLast?_append_of_ne_nil _ (List.cons_ne_nil r later)]
  by_cases hlater : later = []
  · simp [hlater]
  · obtain ⟨front, last, rfl⟩ := (List.eq_nil_or_concat' later).resolve_left hlater
    have hlast := (hkept last (by simp)).2
    simpa [List.getLast?_cons] using hlast

/-- **The first match stands.** No round fails. A call that is never matched only comes to know the
service of its address, and keeps the one it has. A call that is matched in some round is led to an
endpoint of that round with its score, stays so to the end, and is not matched again. -/
theorem first_match_stands (threshold : Int) (c : ExternalCallNode)
    (lists : List (List EndpointNode))
    (hopen : c.resolved = false) :
    (∀ r ∈ history threshold c lists, r.Recordable) ∧
    ((∀ r ∈ history threshold c lists, ∀ m, r.answer = some m → m.resolved = false) →
      ∀ r ∈ history threshold c lists,
        r.call = { c with targetService := c.targetService.or (serviceOf c.url) }) ∧
    (∀ earlier r later m, history threshold c lists = earlier ++ r :: later → r.answer = some m →
      m.resolved = true →
      Settles threshold c r m ∧ afterRounds threshold c lists = r.call ∧
        ∀ l ∈ later, l.answer = none ∧ l.call = r.call) := by
  refine ⟨fun r hr => recordable_of_mem_history hr, fun hnone => history_unmatched hopen hnone, ?_⟩
  intro earlier r later m hsplit hanswer hresolved
  obtain ⟨hsettles, hkept⟩ := history_settled hopen hsplit hanswer hresolved
  exact ⟨hsettles, afterRounds_of_settled hsplit hkept, hkept⟩

/-- A call that was not matched yet. -/
def openCall : ExternalCallNode :=
  ⟨"external:GET:/orders/5:method:a.B.c()", "method:a.B.c()", "http", some "GET",
    some "http://orders.svc/orders/5", none, false, none, none, none, none, none, 0⟩

/-- A round without endpoints, one with a pattern, and one with just the path of the call. -/
def betterLater : List (List EndpointNode) :=
  [[], [getEndpoint "/orders/\x7bid\x7d"], [getEndpoint "/orders/5", getEndpoint "/orders"]]

theorem betterLater_comes_too_late :
    openCall.resolved = false ∧
    ∃ first second third, history 3 openCall betterLater = [first, second, third] ∧
      first.call = { openCall with targetService := some "orders" } ∧
      (∃ m, second.answer = some m ∧ m.resolved = true ∧ Settles 3 openCall second m) ∧
      second.call.targetEndpointId = some (getEndpoint "/orders/\x7bid\x7d").id ∧
      second.call.score = 8 ∧ third.answer = none ∧
      afterRounds 3 openCall betterLater = second.call := by
  have hopen : openCall.resolved = false := rfl
  obtain ⟨first, second, third, hhistory, hfirst, m, hanswer, hresolved, htarget, hscore⟩ :
      ∃ first second third, history 3 openCall betterLater = [first, second, third] ∧
        first.call = { openCall with targetService := some "orders" } ∧
        ∃ m, second.answer = some m ∧ m.resolved = true ∧
          second.call.targetEndpointId = some (getEndpoint "/orders/\x7bid\x7d").id ∧
          second.call.score = 8 :=
    ⟨_, _, _, rfl, by decide, _, rfl, by decide, by decide, by decide⟩
  obtain ⟨hsettles, hafter, hlater⟩ := (first_match_stands 3 openCall betterLater hopen).2.2
    [first] second [third] m hhistory hanswer hresolved
  exact ⟨hopen, first, second, third, hhistory, hfirst, ⟨m, hanswer, hresolved, hsettles⟩, htarget,
    hscore, (hlater third (by simp)).1, hafter⟩

end ExternalCallNode

end ArchGraph
