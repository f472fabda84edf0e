import ArchGraph.Proofs.Integrity

/-!
What linking topics leaves behind. Every use is noted twice, on the method and on the topic, and
both sides show just the uses that were linked (`Reflects`): one more use keeps that
(`Reflects.attach`), so it holds after any number of them (`Reflects.attachAll`) and in every
resolved project (`reflects_resolveBound`). A use that is shown already changes nothing
(`Reflects.attach_of_mem`).
-/

namespace ArchGraph

/-! ## The two sides of a link -/

/-- The topics a method is linked to in a direction. -/
def MethodNode.topicLinks (m : MethodNode) : TopicDirection → List String
  | .produce => m.producesTo
  | .consume => m.consumesFrom

/-- The components on a side of a topic. -/
def TopicNode.users (t : TopicNode) : TopicDirection → List String
  | .produce => t.producers
  | .consume => t.consumers

/-- The places where a topic is used on a side. -/
def TopicNode.details (t : TopicNode) : TopicDirection → List String
  | .produce => t.producerDetails
  | .consume => t.consumerDetails

theorem MethodNode.topicLinks_link (m : MethodNode) (direction other : TopicDirection)
    (topic : String) :
    (m.link (Topic.linkKind direction) topic).topicLinks other =
      if direction = other then addNew (m.topicLinks other) topic else m.topicLinks other := by
  cases direction <;> cases other <;> rfl

theorem Identifier.topic_injective {a b : String} (h : topic a = topic b) : a = b := by
  have hlist := congrArg String.toList h
  simp only [topic, String.toList_append] at hlist
  exact String.toList_injective (List.append_cancel_left hlist)

theorem addNew_of_mem {xs : List String} {x : String} (h : x ∈ xs) : addNew xs x = xs := if_pos h

namespace Topic

/-- How a topic tells of a use. -/
def Use.detail (u : Use) : String :=
  match u.call.direction with
  | .produce => producerDetail u.component u.methodName u.call.line
  | .consume => consumerDetail u.component u.methodName u.call.line u.call.consumerGroup

def Use.topicId (u : Use) : String := Identifier.topic u.call.topic

theorem users_note (u : Use) (t : TopicNode) (direction : TopicDirection) :
    (note u t).users direction =
      if u.call.direction = direction then addNew (t.users direction) u.component
      else t.users direction := by
  unfold note
  cases u.call.direction <;> cases direction <;> rfl

theorem details_note (u : Use) (t : TopicNode) (direction : TopicDirection) :
    (note u t).details direction =
      if u.call.direction = direction then addNew (t.details direction) u.detail
      else t.details direction := by
  unfold note Use.detail
  cases u.call.direction <;> cases direction <;> rfl

theorem note_frame (u : Use) (t : TopicNode) :
    (note u t).id = t.id ∧ (note u t).name = t.name ∧ (note u t).scopeKey = t.scopeKey := by
  unfold note
  cases u.call.direction <;> exact ⟨rfl, rfl, rfl⟩

/-- Link one use, whether or not its topic is there. -/
def attach (g : ResolvedGraph) (u : Use) : ResolvedGraph := connect (ensure g u.call.topic) u

theorem find?_methods_attach (g : ResolvedGraph) (u : Use) (id : String) :
    (attach g u).methods.find? id =
      if id = u.methodId then
        (g.methods.find? id).map (·.link (linkKind u.call.direction) u.topicId)
      else g.methods.find? id := by
  have hfind : (attach g u).methods.find? id =
      if id = u.methodId then
        (g.methods.find? u.methodId).map (·.link (linkKind u.call.direction) u.topicId)
      else g.methods.find? id := Table.find?_modify ..
  rw [hfind]
  by_cases hid : id = u.methodId
  · rw [hid]
  · rw [if_neg hid, if_neg hid]

/-- The node of a topic as it is before a use of it is noted. -/
def known (g : ResolvedGraph) (u : Use) : TopicNode :=
  (g.topics.find? u.topicId).getD (fresh g.projectId u.call.topic)

theorem find?_topics_attach (g : ResolvedGraph) (u : Use) (id : String) :
    (attach g u).topics.find? id =
      if id = u.topicId then some (note u (known g u)) else g.topics.find? id := by
  have hfind : (attach g u).topics.find? id =
      if id = u.topicId then ((ensure g u.call.topic).topics.find? u.topicId).map (note u)
      else (ensure g u.call.topic).topics.find? id := Table.find?_modify ..
  have hensured : ∀ l, (ensure g u.call.topic).topics.find? l = (g.topics.find? l).or
      (if l = u.topicId then some (fresh g.projectId u.call.topic) else none) := fun l =>
    Table.find?_insertNew ..
  rw [hfind, hensured, hensured]
  by_cases hid : id = u.topicId
  · rw [if_pos hid, if_pos hid, if_pos rfl]
    unfold known
    cases g.topics.find? u.topicId <;> rfl
  · rw [if_neg hid, if_neg hid, if_neg hid, Option.or_none]

theorem keys_methods_attach (g : ResolvedGraph) (u : Use) :
    (attach g u).methods.keys = g.methods.keys := Table.keys_modify ..

/-! ## Lists of what uses have in common -/

/-- The list has what `f` makes of the uses that `p` holds of, and each once. -/
structure Collects (us : List Use) (p : Use → Prop) (f : Use → String)
    (xs : List String) : Prop where
  once : xs.Nodup
  mem : ∀ x, x ∈ xs ↔ ∃ u ∈ us, p u ∧ f u = x

theorem exists_mem_concat {us : List Use} {u : Use} {p : Use → Prop} :
    (∃ v ∈ us ++ [u], p v) ↔ (∃ v ∈ us, p v) ∨ p u := by
  simp [or_and_right, exists_or]

namespace Collects

variable {us : List Use} {p : Use → Prop} {f : Use → String} {xs : List String}

theorem empty (h : ∀ u ∈ us, ¬ p u) : Collects us p f [] := by
  refine ⟨List.nodup_nil, fun x => ?_⟩
  simp only [List.not_mem_nil, false_iff]
  rintro ⟨u, hu, hp, _⟩
  exact h u hu hp

theorem add (h : Collects us p f xs) {u : Use} (hp : p u) :
    Collects (us ++ [u]) p f (addNew xs (f u)) := by
  refine ⟨nodup_addNew h.once _, fun x => ?_⟩
  rw [mem_addNew, h.mem, exists_mem_concat]
  apply or_congr_right
  rw [and_iff_right hp]
  exact eq_comm

theorem pass (h : Collects us p f xs) {u : Use} (hp : ¬ p u) : Collects (us ++ [u]) p f xs := by
  refine ⟨h.once, fun x => ?_⟩
  rw [h.mem, exists_mem_concat]
  exact (or_iff_left fun hu => hp hu.1).symm

theorem addIf {d : Prop} [Decidable d] (h : Collects us p f xs) {u : Use} (hd : p u ↔ d) :
    Collects (us ++ [u]) p f (if d then addNew xs (f u) else xs) := by
  split
  · rename_i hyes
    exact h.add (hd.mpr hyes)
  · rename_i hno
    exact h.pass fun hp => hno (hd.mp hp)

theorem ne_nil_iff (h : Collects us p f xs) : xs ≠ [] ↔ ∃ u ∈ us, p u := by
  constructor
  · intro hne
    obtain ⟨x, hx⟩ := List.exists_mem_of_ne_nil xs hne
    obtain ⟨u, hu, hp, _⟩ := (h.mem x).mp hx
    exact ⟨u, hu, hp⟩
  · rintro ⟨u, hu, hp⟩
    exact List.ne_nil_of_mem ((h.mem (f u)).mpr ⟨u, hu, hp, rfl⟩)

end Collects

/-! ## What a graph shows of the uses -/

/-- The links of a method are those of its uses. -/
def MethodShows (us : List Use) (id : String) (m : MethodNode) : Prop :=
  ∀ direction, Collects us (fun u => u.methodId = id ∧ u.call.direction = direction) Use.topicId
    (m.topicLinks direction)

/-- A topic lists those that use it. -/
structure TopicShows (us : List Use) (scope id : String) (t : TopicNode) : Prop where
  self : t.id = id
  named : id = Identifier.topic t.name
  owner : t.scopeKey = scope
  users : ∀ direction, Collects us (fun u => u.call.topic = t.name ∧ u.call.direction = direction)
    (·.component) (t.users direction)
  details : ∀ direction, Collects us (fun u => u.call.topic = t.name ∧ u.call.direction = direction)
    Use.detail (t.details direction)

/-- Methods and topics show the uses and nothing else. -/
structure Reflects (us : List Use) (g : ResolvedGraph) : Prop where
  methods : g.methods.All (MethodShows us)
  topics : g.topics.All (TopicShows us g.projectId)
  present : ∀ id, id ∈ g.topics.keys ↔ ∃ u ∈ us, u.topicId = id

variable {us : List Use} {g : ResolvedGraph}

theorem MethodShows.attach {id : String} {m : MethodNode} (h : MethodShows us id m) {u : Use}
    (hid : u.methodId = id) :
    MethodShows (us ++ [u]) id (m.link (linkKind u.call.direction) u.topicId) := by
  intro direction
  rw [MethodNode.topicLinks_link]
  exact (h direction).addIf (and_iff_right hid)

theorem MethodShows.pass {id : String} {m : MethodNode} (h : MethodShows us id m) {u : Use}
    (hid : u.methodId ≠ id) : MethodShows (us ++ [u]) id m :=
  fun direction => (h direction).pass fun hp => hid hp.1

theorem TopicShows.note {scope id : String} {t : TopicNode} (h : TopicShows us scope id t) {u : Use}
    (hname : u.call.topic = t.name) : TopicShows (us ++ [u]) scope id (note u t) := by
  obtain ⟨hid, hnamed, hscope⟩ := note_frame u t
  refine ⟨hid.trans h.self, hnamed ▸ h.named, hscope.trans h.owner, fun direction => ?_,
    fun direction => ?_⟩
  · rw [hnamed, users_note]
    exact (h.users direction).addIf (and_iff_right hname)
  · rw [hnamed, details_note]
    exact (h.details direction).addIf (and_iff_right hname)

theorem TopicShows.topicId_eq_iff {scope id : String} {t : TopicNode} (h : TopicShows us scope id t)
    (u : Use) : u.topicId = id ↔ u.call.topic = t.name := by
  rw [h.named]
  exact ⟨Identifier.topic_injective, congrArg Identifier.topic⟩

theorem TopicShows.pass {scope id : String} {t : TopicNode} (h : TopicShows us scope id t) {u : Use}
    (hid : u.topicId ≠ id) : TopicShows (us ++ [u]) scope id t := by
  have hname : u.call.topic ≠ t.name := fun heq => hid ((h.topicId_eq_iff u).mpr heq)
  exact { h with
    users := fun direction => (h.users direction).pass fun hp => hname hp.1
    details := fun direction => (h.details direction).pass fun hp => hname hp.1 }

/-- A topic that is not there is one that no use names. -/
theorem Reflects.known (h : Reflects us g) (u : Use) :
    TopicShows us g.projectId u.topicId (known g u) ∧ (known g u).name = u.call.topic := by
  unfold Topic.known
  cases hfind : g.topics.find? u.topicId with
  | some t =>
      have ht := h.topics u.topicId t hfind
      exact ⟨ht, ((ht.topicId_eq_iff u).mp rfl).symm⟩
  | none =>
      have hunused : ∀ v ∈ us, v.call.topic ≠ u.call.topic := by
        intro v hv heq
        refine Table.find?_eq_none_iff.mp hfind ((h.present u.topicId).mpr ⟨v, hv, ?_⟩)
        exact congrArg Identifier.topic heq
      have hempty : ∀ direction (f : Use → String), Collects us
          (fun v => v.call.topic = u.call.topic ∧ v.call.direction = direction) f [] :=
        fun direction f => .empty fun v hv hp => hunused v hv hp.1
      refine ⟨⟨rfl, rfl, rfl, fun direction => ?_, fun direction => ?_⟩, rfl⟩
      · cases direction <;> exact hempty _ _
      · cases direction <;> exact hempty _ _

/-- One more use. -/
theorem Reflects.attach (h : Reflects us g) (u : Use) : Reflects (us ++ [u]) (attach g u) where
  methods := by
    intro id m hm
    rw [find?_methods_attach] at hm
    split at hm
    · rename_i hid
      obtain ⟨old, hold, rfl⟩ := Option.map_eq_some_iff.mp hm
      exact (h.methods id old hold).attach hid.symm
    · rename_i hid
      exact (h.methods id m hm).pass (Ne.symm hid)
  topics := by
    intro id t ht
    rw [find?_topics_attach] at ht
    split at ht
    · rename_i hid
      obtain ⟨hshows, hname⟩ := h.known u
      rw [← Option.some.inj ht, hid]
      exact hshows.note hname.symm
    · rename_i hid
      exact (h.topics id t ht).pass (Ne.symm hid)
  present := by
    intro id
    have hkeys : id ∈ (Topic.attach g u).topics.keys ↔ id ∈ g.topics.keys ∨ id = u.topicId := by
      rw [Topic.attach, connect, Table.keys_modify, ensure, Table.keys_insertNew, mem_addNew]
      rfl
    rw [hkeys, h.present, exists_mem_concat]
    exact or_congr_right eq_comm

theorem Reflects.attachAll (uses : List Use) (h : Reflects us g) :
    Reflects (us ++ uses) (uses.foldl Topic.attach g) := by
  induction uses generalizing us g with
  | nil => simpa using h
  | cons u uses ih => simpa using ih (h.attach u)

theorem link_of_mem {m : MethodNode} {direction : TopicDirection} {topic : String}
    (h : topic ∈ m.topicLinks direction) : m.link (linkKind direction) topic = m := by
  cases direction with
  | produce =>
      have hsame : addNew m.producesTo topic = m.producesTo := addNew_of_mem h
      simp [linkKind, MethodNode.link, hsame]
  | consume =>
      have hsame : addNew m.consumesFrom topic = m.consumesFrom := addNew_of_mem h
      simp [linkKind, MethodNode.link, hsame]

theorem note_of_mem {u : Use} {t : TopicNode} (huser : u.component ∈ t.users u.call.direction)
    (hdetail : u.detail ∈ t.details u.call.direction) : note u t = t := by
  unfold note
  unfold Use.detail at hdetail
  cases hdirection : u.call.direction with
  | produce =>
      rw [hdirection] at huser hdetail
      have husers : addNew t.producers u.component = t.producers := addNew_of_mem huser
      have hdetail : _ ∈ t.producerDetails := hdetail
      have hdetails := addNew_of_mem hdetail
      simp only [husers, hdetails]
  | consume =>
      rw [hdirection] at huser hdetail
      have husers : addNew t.consumers u.component = t.consumers := addNew_of_mem huser
      have hdetail : _ ∈ t.consumerDetails := hdetail
      have hdetails := addNew_of_mem hdetail
      simp only [husers, hdetails]

/-- A topic that is used has a node, under the name that the uses give it. -/
theorem Reflects.topic_of_mem (h : Reflects us g) {u : Use} (hu : u ∈ us) :
    ∃ t, g.topics.find? u.topicId = some t ∧ TopicShows us g.projectId u.topicId t ∧
      u.call.topic = t.name := by
  obtain ⟨t, ht⟩ := Table.mem_keys_iff.mp ((h.present u.topicId).mpr ⟨u, hu, rfl⟩)
  have hshows := h.topics u.topicId t ht
  exact ⟨t, ht, hshows, (hshows.topicId_eq_iff u).mp rfl⟩

/-- What is shown already is not added again. -/
theorem Reflects.attach_of_mem (h : Reflects us g) (hmethods : g.methods.Distinct)
    (htopics : g.topics.Distinct) {u : Use} (hu : u ∈ us) : Topic.attach g u = g := by
  obtain ⟨t, ht, hshows, hname⟩ := h.topic_of_mem hu
  have hensure : ensure g u.call.topic = g := by
    have hsame : g.topics.insertNew u.topicId (fresh g.projectId u.call.topic) = g.topics :=
      Table.upsert_of_find? ht rfl
    unfold ensure
    exact congrArg (fun topics => { g with topics := topics }) hsame
  have hmethod : g.methods.modify u.methodId (·.link (linkKind u.call.direction) u.topicId) =
      g.methods := by
    refine Table.modify_eq_self hmethods fun m hm => link_of_mem ?_
    exact ((h.methods _ m hm u.call.direction).mem _).mpr ⟨u, hu, ⟨rfl, rfl⟩, rfl⟩
  have htopic : g.topics.modify u.topicId (note u) = g.topics := by
    refine Table.modify_eq_self htopics fun t' ht' => ?_
    obtain rfl := Option.some.inj (ht.symm.trans ht')
    refine note_of_mem ?_ ?_
    · exact ((hshows.users u.call.direction).mem _).mpr ⟨u, hu, ⟨hname, rfl⟩, rfl⟩
    · exact ((hshows.details u.call.direction).mem _).mpr ⟨u, hu, ⟨hname, rfl⟩, rfl⟩
  have hconnect : connect g u = { g with
      methods := g.methods.modify u.methodId (·.link (linkKind u.call.direction) u.topicId)
      topics := g.topics.modify u.topicId (note u) } := rfl
  unfold Topic.attach
  rw [hensure, hconnect, hmethod, htopic]

theorem Reflects.attachAll_of_subset (h : Reflects us g) (hmethods : g.methods.Distinct)
    (htopics : g.topics.Distinct) {uses : List Use} (hsub : uses ⊆ us) :
    uses.foldl Topic.attach g = g := by
  induction uses with
  | nil => rfl
  | cons u uses ih =>
      obtain ⟨hu, huses⟩ := List.cons_subset.mp hsub
      rw [List.foldl_cons, h.attach_of_mem hmethods htopics hu, ih huses]

/-! ## Linking open methods -/

/-- No method is sealed. -/
def AllOpen (g : ResolvedGraph) : Prop := g.methods.All (fun _ m => m.isSealed = false)

theorem AllOpen.attach (h : AllOpen g) (u : Use) : AllOpen (attach g u) :=
  Table.All.modify h fun _ hm => by cases u.call.direction <;> exact hm

theorem AllOpen.attachAll (uses : List Use) (h : AllOpen g) :
    AllOpen (uses.foldl Topic.attach g) := by
  induction uses generalizing g with
  | nil => exact h
  | cons u uses ih => exact ih (h.attach u)

/-- Nothing keeps open methods from being linked. -/
theorem linkUses_eq (uses : List Use) (h : AllOpen g) :
    linkUses g uses = (.ok uses.length, uses.foldl attach g) := by
  induction uses generalizing g with
  | nil => rfl
  | cons u uses ih =>
      have hopen : sealedAt? (ensure g u.call.topic) u = none := by
        unfold sealedAt?
        cases hfind : (ensure g u.call.topic).methods.find? u.methodId with
        | none => rfl
        | some m =>
            have hm := h u.methodId m hfind
            simp [hm]
      unfold linkUses
      simp only [hopen]
      rw [← Topic.attach, ih (h.attach u)]
      rfl

/-- Which topic calls are linked depends on the methods there are. -/
theorem uses_of_keys {h : ResolvedGraph} (hkeys : h.methods.keys = g.methods.keys)
    (facts : FactSet) :
    uses h facts = uses g facts := by
  have hsame : usesOf h = usesOf g := by
    funext c m
    have hcontains : h.methods.contains (m.id c) = g.methods.contains (m.id c) := by
      rw [Bool.eq_iff_iff, Table.contains_iff, Table.contains_iff, hkeys]
    unfold usesOf
    rw [hcontains]
  unfold uses
  rw [hsame]

theorem mem_uses {facts : FactSet} {u : Use} :
    u ∈ uses g facts ↔ ∃ c ∈ facts.components, ∃ m ∈ c.methods, m.id c ∈ g.methods.keys ∧
      ∃ call ∈ m.topicCalls, u = ⟨c.name, m.name, m.id c, call⟩ := by
  have hof : ∀ c m, u ∈ usesOf g c m ↔ m.id c ∈ g.methods.keys ∧
      ∃ call ∈ m.topicCalls, u = ⟨c.name, m.name, m.id c, call⟩ := by
    intro c m
    unfold usesOf
    by_cases hin : m.id c ∈ g.methods.keys
    · rw [if_pos ((Table.contains_iff _ _).mpr hin)]
      simp [hin, eq_comm]
    · rw [if_neg fun hc => hin ((Table.contains_iff _ _).mp hc)]
      simp [hin]
  unfold uses registrationOrder
  simp only [List.mem_flatMap, List.mem_mergeSort, hof]

theorem keys_methods_attachAll (uses : List Use) (g : ResolvedGraph) :
    (uses.foldl attach g).methods.keys = g.methods.keys := by
  induction uses generalizing g with
  | nil => rfl
  | cons u uses ih => rw [List.foldl_cons, ih, keys_methods_attach]

/-! ## Projects before they are linked -/

/-- There are no topics yet, and every method is open and linked to none. -/
structure Unlinked (g : ResolvedGraph) : Prop where
  topics : g.topics = ∅
  methods : g.methods.All (fun _ m => m.isSealed = false ∧ ∀ direction, m.topicLinks direction = [])

namespace Unlinked

open Registry

theorem addExternalCalls (source : String) (calls : List OutboundCall) (h : Unlinked g) :
    Unlinked (calls.foldl (addExternalCall source) g) := by
  have hstep : ∀ {g : ResolvedGraph} (call : OutboundCall), Unlinked g →
      Unlinked (addExternalCall source g call) := by
    intro g call hg
    unfold addExternalCall
    dsimp only
    split
    · exact hg
    · refine ⟨hg.topics, hg.methods.modify fun m hm => ⟨hm.1, fun direction => ?_⟩⟩
      cases direction with
      | produce => exact hm.2 .produce
      | consume => exact hm.2 .consume
  induction calls generalizing g with
  | nil => exact h
  | cons call calls ih => exact ih (hstep call h)

theorem addMethod {r : Registry} (h : Unlinked r.graph) (c : Component) (kind : MethodKind)
    (m : MethodFact) : Unlinked (addMethod c kind r m).graph := by
  unfold Registry.addMethod
  dsimp only
  split
  · exact h
  · refine addExternalCalls _ _ ⟨h.topics, h.methods.insert ⟨rfl, fun direction => ?_⟩⟩
    cases direction <;> rfl

theorem resolveAll {ctx : Resolution.Context} (ms : List Registered) (h : Unlinked g) :
    Unlinked (CallGraph.resolveAll ctx ms g) := by
  have hstep : ∀ {g : ResolvedGraph} (m : Registered), Unlinked g →
      Unlinked (CallGraph.resolveOne ctx g m) := by
    intro g m hg
    rw [CallGraph.resolveOne_eq]
    refine ⟨hg.topics, hg.methods.modify fun node hnode => ⟨hnode.1, fun direction => ?_⟩⟩
    cases direction with
    | produce => exact hnode.2 .produce
    | consume => exact hnode.2 .consume
  induction ms generalizing g with
  | nil => exact h
  | cons m ms ih => exact ih (hstep m h)

theorem reflects (h : Unlinked g) : Reflects [] g where
  methods := by
    intro id m hm direction
    rw [(h.methods id m hm).2 direction]
    exact .empty fun _ hu => absurd hu List.not_mem_nil
  topics := by
    rw [h.topics]
    exact .empty
  present := by simp [h.topics]

theorem allOpen (h : Unlinked g) : AllOpen g := h.methods.imp fun _ _ hm => hm.1

end Unlinked

theorem unlinked_ofFacts (facts : FactSet) : Unlinked (Registry.ofFacts facts).graph :=
  Registry.ofFacts_induction (P := fun r => Unlinked r.graph) facts ⟨rfl, .empty⟩
    (fun _ _ h => ⟨h.topics, h.methods⟩) (fun c kind _ m h => h.addMethod c kind m)

end Topic

namespace CallGraph

variable (facts : FactSet)

theorem unlinked_ofBound : Topic.Unlinked (ofBound facts) := by
  obtain ⟨done, hgraph⟩ := exists_resolveAll facts
  rw [hgraph]
  exact (Topic.unlinked_ofFacts facts).resolveAll done

theorem keys_ofBound : (ofBound facts).methods.keys = (registered facts).map (·.decl.id) := by
  rw [methods_ofBound, flat_keys]

end CallGraph

/-! ## Resolved projects -/

namespace FactSet

variable (threshold : Int) (facts : FactSet)

/-- The project with its outbound calls matched, before its topics are linked. -/
def matched : ResolvedGraph := (CallGraph.ofBound facts).resolveCalls threshold

/-- The topic calls that are linked. -/
def topicUses : List Topic.Use := Topic.uses (CallGraph.ofBound facts) facts

theorem unlinked_matched : Topic.Unlinked (facts.matched threshold) :=
  ⟨(CallGraph.unlinked_ofBound facts).topics, (CallGraph.unlinked_ofBound facts).methods⟩

/-- Every topic call of a method of the graph is linked. -/
theorem link_matched : Topic.link (facts.matched threshold) facts =
    (.ok facts.topicUses.length, facts.topicUses.foldl Topic.attach (facts.matched threshold)) :=
  Topic.linkUses_eq _ (facts.unlinked_matched threshold).allOpen

theorem reflects_linked :
    Topic.Reflects facts.topicUses (Topic.link (facts.matched threshold) facts).2 := by
  rw [link_matched]
  exact (facts.unlinked_matched threshold).reflects.attachAll facts.topicUses

theorem reflects_resolveBound : Topic.Reflects facts.topicUses (facts.resolveBound threshold) := by
  have hlinked := facts.reflects_linked threshold
  refine ⟨hlinked.methods.map fun id m hm direction => ?_, hlinked.topics, hlinked.present⟩
  cases direction with
  | produce => exact hm .produce
  | consume => exact hm .consume

theorem keys_linked : (Topic.link (facts.matched threshold) facts).2.methods.keys =
    (CallGraph.registered facts).map (·.decl.id) := by
  rw [link_matched, Topic.keys_methods_attachAll]
  exact CallGraph.keys_ofBound facts

/-- Linking the same facts once more changes nothing. -/
theorem link_linked : Topic.link (Topic.link (facts.matched threshold) facts).2 facts =
    Topic.link (facts.matched threshold) facts := by
  have hintact : (Topic.link (facts.matched threshold) facts).2.Intact :=
    ((ResolvedGraph.intact_ofBound facts).resolveCalls threshold).linkUses _
  have hreflects := facts.reflects_linked threshold
  have huses :
      Topic.uses (Topic.link (facts.matched threshold) facts).2 facts = facts.topicUses := by
    apply Topic.uses_of_keys
    rw [keys_linked, CallGraph.keys_ofBound]
  have hopen : Topic.AllOpen (Topic.link (facts.matched threshold) facts).2 := by
    rw [link_matched]
    exact (facts.unlinked_matched threshold).allOpen.attachAll _
  have hagain : Topic.link (Topic.link (facts.matched threshold) facts).2 facts =
      (.ok facts.topicUses.length, (Topic.link (facts.matched threshold) facts).2) := by
    rw [Topic.link, huses, Topic.linkUses_eq _ hopen,
      hreflects.attachAll_of_subset hintact.methodsOnce hintact.topicsOnce (List.Subset.refl _)]
  rw [hagain, link_matched]

theorem keys_resolveBound : (facts.resolveBound threshold).methods.keys =
    (CallGraph.registered facts).map (·.decl.id) := by
  have hkeys : (facts.resolveBound threshold).methods.keys =
      (Topic.link (facts.matched threshold) facts).2.methods.keys := Table.keys_map ..
  rw [hkeys, keys_linked]

/-- What is linked are the topic calls of all facts whose identifier is that of a registered
method. -/
theorem mem_topicUses {u : Topic.Use} :
    u ∈ facts.topicUses ↔ ∃ c ∈ facts.components, ∃ m ∈ c.methods,
      (∃ n ∈ CallGraph.registered facts, n.decl.id = m.id c) ∧
      ∃ call ∈ m.topicCalls, u = ⟨c.name, m.name, m.id c, call⟩ := by
  unfold topicUses
  simp only [Topic.mem_uses, CallGraph.keys_ofBound, List.mem_map]

/-- The methods whose topic calls are linked are there. -/
theorem known_topicUses :
    ∀ u ∈ facts.topicUses, u.methodId ∈ (facts.resolveBound threshold).methods.keys := by
  intro u hu
  obtain ⟨c, _, m, _, hregistered, _, _, rfl⟩ := facts.mem_topicUses.mp hu
  rw [keys_resolveBound]
  exact List.mem_map.mpr hregistered

end FactSet

end ArchGraph
