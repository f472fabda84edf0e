import ArchGraph.Proofs.Detection

/-!
Methods by their keys. The search among the methods is one among keys, each of which joins the class
of a method and its name by a dot. Where every class is named and no name has a dot, a key tells the
class (`owner_of_methodKey`), so it can be said which cycles of keys cross from one class to another
(`crossesComponents_iff`).
-/

namespace ArchGraph.Cycle

variable {g : Graph} {limit : Int}

/-! ## Keys -/

/-- The class in a key: what stands before the last dot. -/
def ownerOf (key : String) : String :=
  String.ofList ((key.toList.reverse.dropWhile (· ≠ '.')).drop 1).reverse

/-- The name in a key: what stands after the last dot. -/
def nameOf (key : String) : String :=
  String.ofList (key.toList.reverse.takeWhile (· ≠ '.')).reverse

theorem dot_notMem_nameOf (key : String) : '.' ∉ (nameOf key).toList := by
  unfold nameOf
  rw [String.toList_ofList, List.mem_reverse]
  intro h
  have hkept := List.all_eq_true.mp List.all_takeWhile _ h
  exact of_decide_eq_true hkept rfl

theorem ownerOf_append (o : String) {m : String} (h : '.' ∉ m.toList) :
    ownerOf (o ++ "." ++ m) = o := by
  have htext : (o ++ "." ++ m).toList.reverse = m.toList.reverse ++ '.' :: o.toList.reverse := by
    simp [String.toList_append]
  have hname : ∀ c ∈ m.toList.reverse, decide (c ≠ '.') = true := by
    intro c hc
    refine decide_eq_true ?_
    rintro rfl
    exact h (List.mem_reverse.mp hc)
  unfold ownerOf
  rw [htext, List.dropWhile_append_of_pos hname]
  simp

theorem owner_dot_name {key : String} (h : '.' ∈ key.toList) :
    ownerOf key ++ "." ++ nameOf key = key := by
  obtain ⟨before, after, hsplit, hfree⟩ := List.eq_append_cons_of_mem (List.mem_reverse.mpr h)
  have hname : ∀ c ∈ before, decide (c ≠ '.') = true := by
    intro c hc
    refine decide_eq_true ?_
    rintro rfl
    exact hfree hc
  have howner : ownerOf key = String.ofList after.reverse := by
    unfold ownerOf
    rw [hsplit, List.dropWhile_append_of_pos hname]
    simp
  have hafter : nameOf key = String.ofList before.reverse := by
    unfold nameOf
    rw [hsplit, List.takeWhile_append_of_pos hname]
    simp
  rw [howner, hafter, ← String.toList_inj]
  have hkey := congrArg List.reverse hsplit
  simp only [List.reverse_reverse, List.reverse_append, List.reverse_cons] at hkey
  simp [String.toList_append, hkey]

/-! ## Calls between methods -/

/-- A method with the key `u` calls one with the key `v`. -/
def MethodCall (g : Graph) (u v : String) : Prop :=
  ∃ e ∈ g.callEdges, methodKey g e.1 = u ∧ methodKey g e.2 = v

theorem edge_eq_methodCall (g : Graph) :
    Adjacency.Edge (methodAdjacency (methodCalls g)) = MethodCall g := by
  funext u v
  rw [eq_iff_iff, edge_methodAdjacency]
  constructor
  · rintro ⟨c, hc, rfl, rfl⟩
    obtain ⟨e, he, rfl⟩ := List.mem_map.mp hc
    exact ⟨e, he, rfl, rfl⟩
  · rintro ⟨e, he, rfl, rfl⟩
    exact ⟨_, List.mem_map_of_mem he, rfl, rfl⟩

/-- The keys of the methods that take part in calls. -/
def methods (g : Graph) : List String := Adjacency.nodes (methodAdjacency (methodCalls g))

theorem exists_call_iff {x : String} :
    (∃ c ∈ methodCalls g, c.1.key = x ∨ c.2.key = x) ↔ ∃ id, CallEnd g id ∧ methodKey g id = x := by
  constructor
  · rintro ⟨c, hc, hkey⟩
    obtain ⟨e, he, rfl⟩ := List.mem_map.mp hc
    rcases hkey with hkey | hkey
    · exact ⟨e.1, ⟨e, he, .inl rfl⟩, hkey⟩
    · exact ⟨e.2, ⟨e, he, .inr rfl⟩, hkey⟩
  · rintro ⟨id, ⟨e, he, rfl | rfl⟩, hkey⟩
    · exact ⟨_, List.mem_map_of_mem he, .inl hkey⟩
    · exact ⟨_, List.mem_map_of_mem he, .inr hkey⟩

theorem mem_methods {x : String} : x ∈ methods g ↔ ∃ id, CallEnd g id ∧ methodKey g id = x :=
  (Adjacency.mem_nodes_ofItems (fun c : MethodInfo × MethodInfo => c.1.key) (fun c => c.2.key)
    (methodCalls g)).trans exists_call_iff

theorem MethodCall.mem {u v : String} (h : MethodCall g u v) : u ∈ methods g ∧ v ∈ methods g := by
  obtain ⟨e, he, hsource, htarget⟩ := h
  exact ⟨mem_methods.mpr ⟨e.1, ⟨e, he, .inl rfl⟩, hsource⟩,
    mem_methods.mpr ⟨e.2, ⟨e, he, .inr rfl⟩, htarget⟩⟩

/-- What is known of a method is what a node with its key says. -/
theorem infoOf_method {x : String} (hx : x ∈ methods g) :
    ∃ id, CallEnd g id ∧ methodKey g id = x ∧
      infoOf (methodInfos (methodCalls g)) x = methodInfo (g.attributesOf id) :=
  infoOf_eq (exists_call_iff.mpr (mem_methods.mp hx))

/-- The walks that the search among the methods finds. -/
def methodWalks (g : Graph) (limit : Int) : List (List String) :=
  Adjacency.cycles (methodAdjacency (methodCalls g)) [] limit

theorem simple_of_methodWalk {walk : List String} (h : walk ∈ methodWalks g limit) :
    Adjacency.SimpleCycle (MethodCall g) walk :=
  edge_eq_methodCall g ▸ Adjacency.simple_of_mem_cycles h

theorem mem_methods_of_ring {ring : List String} (h : Adjacency.SimpleCycle (MethodCall g) ring) :
    ∀ x ∈ ring, x ∈ methods g := by
  obtain ⟨hwalk, x, between, rfl, _⟩ := h
  have hopen : ∀ y ∈ x :: between, y ∈ methods g := by
    intro y hy
    obtain ⟨z, hcall⟩ := Adjacency.exists_next hwalk y hy
    exact hcall.mem.1
  intro y hy
  rcases List.mem_append.mp hy with hy | hy
  · exact hopen y hy
  · rw [List.mem_singleton.mp hy]
    exact hopen x List.mem_cons_self

/-! ## Classes -/

/-- Every method that takes part in a call has a class with a name, and no dot in its own name. -/
def WellNamed (g : Graph) : Prop :=
  ∀ id, CallEnd g id → (∃ o, o ≠ "" ∧ owner (g.attributesOf id) = .str o) ∧
    '.' ∉ ((g.attributesOf id).attribute "name").display.toList

/-- A method with the key `x` belongs to the class `o`. -/
def OwnedBy (g : Graph) (x o : String) : Prop :=
  ∃ id, CallEnd g id ∧ methodKey g id = x ∧ owner (g.attributesOf id) = .str o

/-- The keys belong to two classes at least. -/
def Crosses (g : Graph) (keys : List String) : Prop :=
  ∃ x ∈ keys, ∃ y ∈ keys, ∃ o p, OwnedBy g x o ∧ OwnedBy g y p ∧ o ≠ p

theorem owner_of_methodKey (h : WellNamed g) {id : String} (hid : CallEnd g id) :
    owner (g.attributesOf id) = .str (ownerOf (methodKey g id)) ∧
    ownerOf (methodKey g id) ≠ "" := by
  obtain ⟨⟨o, hsome, howner⟩, hname⟩ := h id hid
  have hkey : methodKey g id = o ++ "." ++ ((g.attributesOf id).attribute "name").display := by
    unfold methodKey MethodInfo.key methodInfo
    rw [howner]
    rfl
  rw [hkey, ownerOf_append o hname]
  exact ⟨howner, hsome⟩

theorem ownedBy_iff (h : WellNamed g) {x o : String} :
    OwnedBy g x o ↔ x ∈ methods g ∧ ownerOf x = o := by
  constructor
  · rintro ⟨id, hid, rfl, howner⟩
    rw [(owner_of_methodKey h hid).1] at howner
    exact ⟨mem_methods.mpr ⟨id, hid, rfl⟩, Json.str.inj howner⟩
  · rintro ⟨hx, rfl⟩
    obtain ⟨id, hid, rfl⟩ := mem_methods.mp hx
    exact ⟨id, hid, rfl, (owner_of_methodKey h hid).1⟩

theorem crosses_iff (h : WellNamed g) {keys : List String} (hkeys : ∀ x ∈ keys, x ∈ methods g) :
    Crosses g keys ↔ ∃ x ∈ keys, ∃ y ∈ keys, ownerOf x ≠ ownerOf y := by
  constructor
  · rintro ⟨x, hx, y, hy, o, p, howner, hother, hne⟩
    rw [← ((ownedBy_iff h).mp howner).2, ← ((ownedBy_iff h).mp hother).2] at hne
    exact ⟨x, hx, y, hy, hne⟩
  · rintro ⟨x, hx, y, hy, hne⟩
    exact ⟨x, hx, y, hy, _, _, (ownedBy_iff h).mpr ⟨hkeys x hx, rfl⟩,
      (ownedBy_iff h).mpr ⟨hkeys y hy, rfl⟩, hne⟩

/-- What the filter for cycles between classes lets through. -/
theorem crossesComponents_iff (h : WellNamed g) {keys : List String}
    (hkeys : ∀ x ∈ keys, x ∈ methods g) :
    crossesComponents (methodInfos (methodCalls g)) keys = true ↔ Crosses g keys := by
  have howner : ∀ x ∈ keys, (infoOf (methodInfos (methodCalls g)) x).owner = .str (ownerOf x) := by
    intro x hx
    obtain ⟨id, hid, rfl, hinfo⟩ := infoOf_method (hkeys x hx)
    rw [hinfo]
    exact (owner_of_methodKey h hid).1
  rw [crosses_iff h hkeys]
  cases keys with
  | nil => simp [crossesComponents]
  | cons first rest =>
      unfold crossesComponents
      rw [List.any_eq_true]
      constructor
      · rintro ⟨x, hx, hdiffer⟩
        have hin := List.mem_cons_of_mem first hx
        rw [howner x hin, howner first List.mem_cons_self] at hdiffer
        refine ⟨x, hin, first, List.mem_cons_self, ?_⟩
        simpa [Json.sameValue] using hdiffer
      · rintro ⟨x, hx, y, hy, hne⟩
        -- One of the two differs from the first, and so it is not the first.
        obtain ⟨z, hz, hdiffer⟩ : ∃ z ∈ first :: rest, ownerOf z ≠ ownerOf first := by
          by_cases hfirst : ownerOf x = ownerOf first
          · exact ⟨y, hy, fun he => hne (hfirst.trans he.symm)⟩
          · exact ⟨x, hx, hfirst⟩
        have hrest : z ∈ rest := by
          refine (List.mem_cons.mp hz).resolve_left ?_
          rintro rfl
          exact hdiffer rfl
        refine ⟨z, hrest, ?_⟩
        rw [howner z hz, howner first List.mem_cons_self]
        simpa [Json.sameValue] using hdiffer

/-- The method cycles are the walks that cross from one class to another. -/
theorem ofMethods_ne_nil_iff (h : WellNamed g) {cs : List Cycle}
    (hcs : ofMethods g limit = .ok cs) :
    cs ≠ [] ↔ ∃ walk ∈ methodWalks g limit, Crosses g walk := by
  have hfilter : ∀ walk, walk ∈ (methodWalks g limit).filter
      (crossesComponents (methodInfos (methodCalls g))) ↔
        walk ∈ methodWalks g limit ∧ Crosses g walk := by
    intro walk
    rw [List.mem_filter]
    refine and_congr_right fun hwalk => ?_
    exact crossesComponents_iff h (mem_methods_of_ring (simple_of_methodWalk hwalk))
  constructor
  · intro hsome
    obtain ⟨c, hc⟩ := List.exists_mem_of_ne_nil cs hsome
    obtain ⟨walk, hwalk, _⟩ := mem_of_mapM hcs hc
    exact ⟨walk, (hfilter walk).mp hwalk⟩
  · rintro ⟨walk, hwalk⟩
    obtain ⟨c, hc, _⟩ := mapM_mem hcs ((hfilter walk).mpr hwalk)
    exact List.ne_nil_of_mem hc

end ArchGraph.Cycle
