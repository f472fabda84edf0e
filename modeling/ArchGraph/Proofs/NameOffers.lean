import ArchGraph.Index
import ArchGraph.Proofs.Table

/-!
Histories of an index. Every operation offers a method under some names: registration under all
names that the method has, an alias under one more, which calls are not offered. What the index
leads to can be read off the history: the first offer of a name stands (`first_offer_stands`).

The scopes are filled apart from each other, so this holds of one scope at a time. Where several
kinds are looked through in turn, an answer gives way to the first offer in a kind that comes before
(`answer_kept_iff`).
-/

namespace ArchGraph

/-- The name is one that the method has of its own. -/
def MethodDecl.Bears (m : MethodDecl) (name : String) : Prop :=
  name = methodKey m.className m.methodName ∨ name = methodKey m.qualifiedClass m.methodName ∨
    m.signature = some name ∨ name = m.methodName

instance (m : MethodDecl) (name : String) : Decidable (m.Bears name) :=
  inferInstanceAs (Decidable (_ ∨ _))

theorem MethodDecl.mem_names_iff (m : MethodDecl) {name : String} (hname : name ≠ "") :
    name ∈ m.names ↔ m.Bears name := by
  have hsignature : name ∈ (Text.given? m.signature).toList ↔ m.signature = some name := by
    rw [Option.mem_toList, Text.given?, Option.filter_eq_some_iff]
    simp [hname]
  unfold names Bears
  simp only [List.mem_append, List.mem_cons, List.not_mem_nil, or_false, hsignature, or_assoc]

namespace Index

inductive Operation where
  | register (m : MethodDecl)
  | addAlias (name : String) (m : MethodDecl)
  deriving DecidableEq, Repr

namespace Operation

/-- The method that is offered. -/
def method : Operation → MethodDecl
  | register m => m
  | addAlias _ m => m

/-- The names it is offered under among the methods of its kind. -/
def names : Operation → List String
  | register m => m.names
  | addAlias name _ => [name]

/-- The names it is offered under to calls. -/
def targetNames : Operation → List String
  | register m => if m.kind.isTarget then m.names else []
  | addAlias _ _ => []

/-- A method of this kind is offered under the name. -/
def OffersAmong (kind : MethodKind) (name : String) : Operation → Prop
  | register m => m.kind = kind ∧ m.Bears name
  | addAlias extra m => m.kind = kind ∧ extra = name

/-- A method is offered to calls under the name. -/
def OffersTarget (name : String) : Operation → Prop
  | register m => (m.kind = .repository ∨ m.kind = .service) ∧ m.Bears name
  | addAlias _ _ => False

instance (kind : MethodKind) (name : String) :
    (op : Operation) → Decidable (op.OffersAmong kind name)
  | register _ => inferInstanceAs (Decidable (_ ∧ _))
  | addAlias _ _ => inferInstanceAs (Decidable (_ ∧ _))

instance (name : String) : (op : Operation) → Decidable (op.OffersTarget name)
  | register _ => inferInstanceAs (Decidable (_ ∧ _))
  | addAlias _ _ => inferInstanceAs (Decidable False)

theorem offersAmong_iff {kind : MethodKind} {name : String} (hname : name ≠ "") (op : Operation) :
    op.OffersAmong kind name ↔ op.method.kind = kind ∧ name ∈ op.names := by
  cases op with
  | register m => exact and_congr_right fun _ => (m.mem_names_iff hname).symm
  | addAlias extra m => simp [OffersAmong, method, names, eq_comm]

theorem offersTarget_iff {name : String} (hname : name ≠ "") (op : Operation) :
    op.OffersTarget name ↔ name ∈ op.targetNames := by
  cases op with
  | register m =>
      have hkind : (m.kind = .repository ∨ m.kind = .service) ↔ m.kind.isTarget = true := by
        cases m.kind <;> decide
      rw [OffersTarget, targetNames, hkind, ← m.mem_names_iff hname]
      cases m.kind.isTarget <;> simp
  | addAlias extra m => simp [OffersTarget, targetNames]

end Operation

def perform (index : Index) : Operation → Index
  | .register m => index.register m
  | .addAlias name m => (index.addAlias name m).2

def performAll (index : Index) (ops : List Operation) : Index := ops.foldl perform index

/-- The index that a history leaves. -/
def after (history : List Operation) : Index := empty.performAll history

/-! ## What an operation adds -/

/-- An operation takes the names it offers in the scope of its kind, where they are free. -/
theorem find?_ofKind_perform (index : Index) (op : Operation) (kind : MethodKind) (name : String) :
    (index.perform op).ofKind.find? (kind, name) =
      (index.ofKind.find? (kind, name)).or
        (if op.method.kind = kind ∧ name ∈ op.names then some op.method else none) := by
  cases op with
  | register m =>
      have hkey : (kind, name) ∈ m.names.map (fun n => (m.kind, n)) ↔
          m.kind = kind ∧ name ∈ m.names := by
        simp only [List.mem_map, Prod.mk.injEq]
        grind
      simp only [perform, register, Table.find?_foldl_insertNew (fun n => (m.kind, n)), hkey]
      rfl
  | addAlias extra m =>
      simp only [perform, addAlias, Table.find?_insertNew]
      simp [Operation.method, Operation.names, eq_comm]

/-- Calls see what is registered for them, and no alias. -/
theorem find?_targets_perform (index : Index) (op : Operation) (name : String) :
    (index.perform op).targets.find? name =
      (index.targets.find? name).or
        (if name ∈ op.targetNames then some op.method else none) := by
  cases op with
  | register m =>
      simp only [perform, register, Operation.targetNames, Operation.method]
      split
      · rw [Table.find?_foldl_insertNew (fun n => n), List.map_id']
      · simp
  | addAlias extra m => simp [perform, addAlias, Operation.targetNames]

/-- Where every operation only fills what is empty, the first that does so in a run is seen after
it. -/
theorem seen_performAll (see : Index → Option MethodDecl) (offers : Operation → Prop)
    [DecidablePred offers]
    (step : ∀ index op, see (index.perform op) =
      (see index).or (if offers op then some op.method else none))
    (index : Index) (ops : List Operation) :
    see (index.performAll ops) =
      (see index).or ((ops.find? (fun op => decide (offers op))).map (·.method)) := by
  induction ops generalizing index with
  | nil => simp [performAll]
  | cons op ops ih =>
      have hrest := ih (index.perform op)
      rw [step, Option.or_assoc] at hrest
      rw [List.find?_cons]
      refine hrest.trans ?_
      by_cases h : offers op
      · simp [h]
      · simp [h]

theorem find?_ofKind_performAll (index : Index) (ops : List Operation) (kind : MethodKind)
    (name : String) :
    (index.performAll ops).ofKind.find? (kind, name) = (index.ofKind.find? (kind, name)).or
      ((ops.find? (fun op => decide (op.method.kind = kind ∧ name ∈ op.names))).map (·.method)) :=
  seen_performAll (·.ofKind.find? (kind, name)) (fun op => op.method.kind = kind ∧ name ∈ op.names)
    (fun index op => index.find?_ofKind_perform op kind name) index ops

theorem find?_targets_performAll (index : Index) (ops : List Operation) (name : String) :
    (index.performAll ops).targets.find? name = (index.targets.find? name).or
      ((ops.find? (fun op => decide (name ∈ op.targetNames))).map (·.method)) :=
  seen_performAll (·.targets.find? name) (fun op => name ∈ op.targetNames)
    (fun index op => index.find?_targets_perform op name) index ops

/-! ## Looking names up after a history -/

variable {name : String} {m : MethodDecl}

theorem get?_targets (index : Index) (hname : name ≠ "") :
    index.get? .targets name = index.targets.find? name := by
  rw [get?, if_neg hname]

theorem get?_among (index : Index) (kinds : List MethodKind) (hname : name ≠ "") :
    index.get? (.among kinds) name =
      kinds.findSome? (fun kind => index.ofKind.find? (kind, name)) := by
  rw [get?, if_neg hname]

theorem get?_kind (index : Index) (kind : MethodKind) (hname : name ≠ "") :
    index.get? (.among [kind]) name = index.ofKind.find? (kind, name) := by
  rw [get?_among index [kind] hname, List.findSome?_singleton]

theorem after_append (history later : List Operation) :
    after (history ++ later) = (after history).performAll later :=
  List.foldl_append

theorem find?_ofKind_after (history : List Operation) (kind : MethodKind) (hname : name ≠ "") :
    (after history).ofKind.find? (kind, name) =
      (history.find? (fun op => decide (op.OffersAmong kind name))).map (·.method) := by
  simp only [Operation.offersAmong_iff hname]
  exact empty.find?_ofKind_performAll history kind name

theorem find?_targets_after (history : List Operation) (hname : name ≠ "") :
    (after history).targets.find? name =
      (history.find? (fun op => decide (op.OffersTarget name))).map (·.method) := by
  simp only [Operation.offersTarget_iff hname]
  exact empty.find?_targets_performAll history name

/-- The scope of a kind has methods of that kind only. -/
theorem kind_of_find?_after {history : List Operation} {kind : MethodKind} (hname : name ≠ "")
    (h : (after history).ofKind.find? (kind, name) = some m) : m.kind = kind := by
  rw [find?_ofKind_after history kind hname] at h
  obtain ⟨op, hop, rfl⟩ := Option.map_eq_some_iff.mp h
  have hoffers : op.OffersAmong kind name := by simpa using List.find?_some hop
  exact ((op.offersAmong_iff hname).mp hoffers).1

theorem free_iff (history : List Operation) (kind : MethodKind) (hname : name ≠ "") :
    (after history).ofKind.find? (kind, name) = none ↔
      ∀ op ∈ history, ¬ op.OffersAmong kind name := by
  rw [find?_ofKind_after history kind hname, Option.map_eq_none_iff, List.find?_eq_none]
  simp only [decide_eq_true_iff]

theorem find?_ofKind_later {history : List Operation} (later : List Operation) {kind : MethodKind}
    (h : (after history).ofKind.find? (kind, name) = some m) :
    (after (history ++ later)).ofKind.find? (kind, name) = some m := by
  rw [after_append, find?_ofKind_performAll, h, Option.some_or]

theorem find?_targets_later {history : List Operation} (later : List Operation)
    (h : (after history).targets.find? name = some m) :
    (after (history ++ later)).targets.find? name = some m := by
  rw [after_append, find?_targets_performAll, h, Option.some_or]

/-- An answer stays as long as nothing is offered in the kinds that are looked through before. -/
theorem answer_kept_iff (history later : List Operation) (kinds : List MethodKind)
    (hname : name ≠ "") (h : (after history).get? (.among kinds) name = some m) :
    (after (history ++ later)).get? (.among kinds) name = some m ↔
      ∀ kind ∈ kinds.takeWhile (fun kind => decide (kind ≠ m.kind)),
        ∀ op ∈ later, ¬ op.OffersAmong kind name := by
  rw [get?_among _ _ hname] at h ⊢
  induction kinds with
  | nil => cases h
  | cons kind kinds ih =>
      rw [List.findSome?_cons] at h ⊢
      cases hkind : (after history).ofKind.find? (kind, name) with
      | some owner =>
          rw [hkind] at h
          cases h
          simp [find?_ofKind_later later hkind, kind_of_find?_after hname hkind]
      | none =>
          rw [hkind] at h
          have hother : kind ≠ m.kind := by
            rintro rfl
            obtain ⟨own, _, hown⟩ := List.exists_of_findSome?_eq_some h
            rw [← kind_of_find?_after hname hown, hkind] at hown
            cases hown
          rw [List.takeWhile_cons, if_pos (decide_eq_true hother), List.forall_mem_cons]
          cases hlater : (after (history ++ later)).ofKind.find? (kind, name) with
          | none =>
              have hfree := (free_iff (history ++ later) kind hname).mp hlater
              have hnone : ∀ op ∈ later, ¬ op.OffersAmong kind name :=
                fun op hop => hfree op (List.mem_append_right history hop)
              rw [and_iff_right hnone]
              exact ih h
          | some owner =>
              -- the earlier kind has an answer now, and it is a method of that kind
              constructor
              · intro hsame
                cases hsame
                exact absurd (kind_of_find?_after hname hlater).symm hother
              · rintro ⟨hnone, _⟩
                have hfree : (after (history ++ later)).ofKind.find? (kind, name) = none := by
                  rw [free_iff _ _ hname, List.forall_mem_append]
                  exact ⟨(free_iff history kind hname).mp hkind, hnone⟩
                rw [hlater] at hfree
                cases hfree

/-- The first offer of a name stands, in the index that a history leaves. -/
structure FirstOfferStands (history : List Operation) (name : String) : Prop where
  /-- Among the methods of a kind, the one that was offered first owns the name. -/
  ofKind : ∀ kind, (after history).get? (.among [kind]) name =
    (history.find? (fun op => decide (op.OffersAmong kind name))).map (·.method)
  /-- Calls are led to the one that was registered first for them. -/
  targets : (after history).get? .targets name =
    (history.find? (fun op => decide (op.OffersTarget name))).map (·.method)
  /-- An alias is new just where the name was not offered before. -/
  newAlias : ∀ m, ((after history).addAlias name m).1 = true ↔
    ∀ op ∈ history, ¬ op.OffersAmong m.kind name
  /-- No later operation changes what a kind answers. -/
  kindKept : ∀ kind m later, (after history).get? (.among [kind]) name = some m →
    (after (history ++ later)).get? (.among [kind]) name = some m
  /-- Nor what calls are answered. -/
  targetsKept : ∀ m later, (after history).get? .targets name = some m →
    (after (history ++ later)).get? .targets name = some m
  /-- What several kinds answer stays just as long as nothing is offered in a kind that comes
  before. -/
  amongKept : ∀ kinds m later, (after history).get? (.among kinds) name = some m →
    ((after (history ++ later)).get? (.among kinds) name = some m ↔
      ∀ kind ∈ kinds.takeWhile (fun kind => decide (kind ≠ m.kind)),
        ∀ op ∈ later, ¬ op.OffersAmong kind name)

/-- **The first offer of a name stands,** over any history. -/
theorem first_offer_stands (history : List Operation) (name : String) (hname : name ≠ "") :
    FirstOfferStands history name := by
  constructor
  · intro kind
    rw [get?_kind _ kind hname, find?_ofKind_after history kind hname]
  · rw [get?_targets _ hname, find?_targets_after history hname]
  · intro m
    rw [← free_iff history m.kind hname]
    simp [addAlias, Table.contains]
  · intro kind m later h
    rw [get?_kind _ kind hname] at h ⊢
    exact find?_ofKind_later later h
  · intro m later h
    rw [get?_targets _ hname] at h ⊢
    exact find?_targets_later later h
  · intro kinds m later h
    exact answer_kept_iff history later kinds hname h

/-- A method `save` of a class. -/
def saveOf (kind : MethodKind) (package className : String) : MethodDecl :=
  let qualified := package ++ "." ++ className
  ⟨"method:" ++ qualified ++ ".save()", className, qualified, "component:" ++ qualified, "save",
    none, kind, none, none⟩

/-- An archive also answers for a saver, and the saver is registered after it. -/
def archiveAndSaver : List Operation :=
  [.register (saveOf .service "a" "Archive"),
    .addAlias "Saver#save" (saveOf .service "a" "Archive"),
    .register (saveOf .service "b" "Saver"), .register (saveOf .repository "c" "Store")]

/-- Among services the alias comes first. Calls do not see it. -/
theorem saver_behind_archive : "Saver#save" ≠ "" ∧
    FirstOfferStands archiveAndSaver "Saver#save" ∧
    (after archiveAndSaver).get? (.among [.service]) "Saver#save" =
      some (saveOf .service "a" "Archive") ∧
    (after archiveAndSaver).get? .targets "Saver#save" = some (saveOf .service "b" "Saver") ∧
    (after archiveAndSaver).get? (.among [.repository]) "Saver#save" = none := by
  have hstands := first_offer_stands archiveAndSaver "Saver#save" (by decide)
  refine ⟨by decide, hstands, ?_, ?_, ?_⟩
  · rw [hstands.ofKind]
    decide
  · rw [hstands.targets]
    decide
  · rw [hstands.ofKind]
    decide

/-- A service answers until a repository, which is looked through before, has the name too. -/
example : (after (archiveAndSaver.take 3)).get? (.among [.repository, .service]) "save" =
      some (saveOf .service "a" "Archive") ∧
    (after archiveAndSaver).get? (.among [.repository, .service]) "save" =
      some (saveOf .repository "c" "Store") := by
  decide

end Index

end ArchGraph
