import ArchGraph.Cycle
import Mathlib.Data.List.Rotate

/-!
Signatures tell cycles apart up to rotation (`signature_eq_iff_rotation`). Names are joined by
arrows, so names in which no arrow stands can be read back; and a cycle and its rotations have the
same hops.
-/

namespace ArchGraph.Adjacency

/-- No arrow stands in the name. -/
def Plain (name : String) : Prop := ¬ ['-', '>'] <:+: name.toList

instance (name : String) : Decidable (Plain name) := inferInstanceAs (Decidable (¬ _))

theorem plain_of_notMem {name : String} (h : '-' ∉ name.toList) : Plain name :=
  fun harrow => h (harrow.subset List.mem_cons_self)

/-- The text before the first arrow. -/
def beforeArrow : List Char → List Char
  | [] => []
  | c :: cs => if ['-', '>'] <+: c :: cs then [] else c :: beforeArrow cs

theorem beforeArrow_of_plain {cs : List Char} (h : ¬ ['-', '>'] <:+: cs) : beforeArrow cs = cs := by
  induction cs with
  | nil => rfl
  | cons c cs ih =>
      have hhead : ¬ ['-', '>'] <+: c :: cs := fun hp => h hp.isInfix
      have hrest : ¬ ['-', '>'] <:+: cs := fun hi => h (hi.trans (List.suffix_cons c cs).isInfix)
      rw [beforeArrow, if_neg hhead, ih hrest]

/-- An arrow after a blank is not mistaken for one that begins earlier. -/
theorem beforeArrow_append {cs : List Char} (h : ¬ ['-', '>'] <:+: cs) (rest : List Char) :
    beforeArrow (cs ++ ' ' :: '-' :: '>' :: rest) = cs ++ [' '] := by
  induction cs with
  | nil => simp [beforeArrow]
  | cons c cs ih =>
      have hrest : ¬ ['-', '>'] <:+: cs := fun hi => h (hi.trans (List.suffix_cons c cs).isInfix)
      have hhead : ¬ ['-', '>'] <+: c :: (cs ++ ' ' :: '-' :: '>' :: rest) := by
        intro hp
        rw [List.cons_prefix_cons] at hp
        obtain ⟨rfl, hp⟩ := hp
        cases cs with
        | nil => simp at hp
        | cons d ds =>
            rw [List.cons_append, List.cons_prefix_cons] at hp
            obtain ⟨rfl, _⟩ := hp
            exact h ⟨[], ds, rfl⟩
      rw [List.cons_append, beforeArrow, if_neg hhead, ih hrest, List.cons_append]

theorem joined_cons_toList (x y : String) (rest : List String) :
    (" -> ".intercalate (x :: y :: rest)).toList =
      x.toList ++ ' ' :: '-' :: '>' :: ' ' :: (" -> ".intercalate (y :: rest)).toList := by
  rw [String.intercalate_cons_cons, String.toList_append, String.toList_append, List.append_assoc]
  rfl

/-- One name alone is not read as several. -/
theorem single_ne_joined {x y z : String} {rest : List String} (hx : Plain x) (hy : Plain y) :
    (" -> ".intercalate [x]).toList ≠ (" -> ".intercalate (y :: z :: rest)).toList := by
  rw [String.intercalate_singleton, joined_cons_toList]
  intro h
  have hcut := congrArg beforeArrow h
  rw [beforeArrow_of_plain hx, beforeArrow_append hy] at hcut
  rw [hcut] at h
  have htail := List.append_cancel_left h
  simp at htail

/-- Plain names can be read back from the text that joins them. -/
theorem joined_injective {xs ys : List String} (hx : ∀ x ∈ xs, Plain x) (hy : ∀ y ∈ ys, Plain y)
    (hxs : xs ≠ []) (hys : ys ≠ []) (h : " -> ".intercalate xs = " -> ".intercalate ys) :
    xs = ys := by
  induction xs generalizing ys with
  | nil => exact absurd rfl hxs
  | cons x xs ih =>
      cases ys with
      | nil => exact absurd rfl hys
      | cons y ys =>
          have hpx := hx x List.mem_cons_self
          have hpy := hy y List.mem_cons_self
          cases xs with
          | nil =>
              cases ys with
              | nil => simpa using h
              | cons z ys => exact absurd (congrArg String.toList h) (single_ne_joined hpx hpy)
          | cons x' xs =>
              cases ys with
              | nil => exact absurd (congrArg String.toList h.symm) (single_ne_joined hpy hpx)
              | cons y' ys =>
                  have hl := congrArg String.toList h
                  rw [joined_cons_toList, joined_cons_toList] at hl
                  have hcut := congrArg beforeArrow hl
                  rw [beforeArrow_append hpx, beforeArrow_append hpy] at hcut
                  have hxy : x.toList = y.toList := List.append_cancel_right hcut
                  rw [hxy] at hl
                  have htail := List.append_cancel_left hl
                  simp only [List.cons.injEq, true_and] at htail
                  have hrest := ih (fun a ha => hx a (List.mem_cons_of_mem _ ha))
                    (fun a ha => hy a (List.mem_cons_of_mem _ ha)) (by simp) (by simp)
                    (String.toList_inj.mp htail)
                  rw [String.toList_inj.mp hxy, hrest]

/-! ## Rotations -/

theorem least?_eq_none {nodes : List String} (h : least? nodes = none) : nodes = [] := by
  cases nodes with
  | nil => rfl
  | cons x xs => simp [least?] at h

theorem rotated_isRotated (nodes : List String) : rotated nodes ~r nodes := by
  unfold rotated
  split
  · rename_i h
    rw [least?_eq_none h]
  · rename_i m _
    have h : nodes.dropWhile (· ≠ m) ++ nodes.takeWhile (· ≠ m) ~r
        nodes.takeWhile (· ≠ m) ++ nodes.dropWhile (· ≠ m) := List.isRotated_append
    rwa [List.takeWhile_append_dropWhile] at h

/-- Cycles of plain names with one signature are rotations of each other. -/
theorem isRotated_of_signature_eq {c d : List String} (hc : ∀ x ∈ opened c, Plain x)
    (hd : ∀ x ∈ opened d, Plain x) (hcn : opened c ≠ []) (hdn : opened d ≠ [])
    (h : signature c = signature d) : opened c ~r opened d := by
  have hrc := rotated_isRotated (opened c)
  have hrd := rotated_isRotated (opened d)
  have hjoined : rotated (opened c) = rotated (opened d) := by
    apply joined_injective _ _ _ _ h
    · exact fun x hx => hc x (hrc.mem_iff.mp hx)
    · exact fun x hx => hd x (hrd.mem_iff.mp hx)
    · intro hn
      rw [hn] at hrc
      exact hcn (List.isRotated_nil_iff'.mp hrc).symm
    · intro hn
      rw [hn] at hrd
      exact hdn (List.isRotated_nil_iff'.mp hrd).symm
  exact hrc.symm.trans (hjoined ▸ hrd)

theorem foldl_least (xs : List String) (x : String) :
    xs.foldl (fun m y => if y < m then y else m) x ∈ x :: xs ∧
    ∀ y ∈ x :: xs, xs.foldl (fun m y => if y < m then y else m) x ≤ y := by
  induction xs generalizing x with
  | nil => simp
  | cons z xs ih =>
      rw [List.foldl_cons]
      by_cases hz : z < x
      · obtain ⟨hmem, hle⟩ := ih z
        rw [if_pos hz]
        have hzx : z ≤ x := String.not_lt.mp (String.lt_asymm hz)
        exact ⟨List.mem_cons_of_mem _ hmem,
          List.forall_mem_cons.mpr ⟨String.le_trans (hle z List.mem_cons_self) hzx, hle⟩⟩
      · obtain ⟨hmem, hle⟩ := ih x
        rw [if_neg hz]
        obtain ⟨hlex, hle⟩ := List.forall_mem_cons.mp hle
        refine ⟨?_, List.forall_mem_cons.mpr ⟨hlex, List.forall_mem_cons.mpr ⟨?_, hle⟩⟩⟩
        · rcases List.mem_cons.mp hmem with hx | hmem
          · rw [hx]
            exact List.mem_cons_self
          · exact List.mem_cons_of_mem _ (List.mem_cons_of_mem _ hmem)
        · exact String.le_trans hlex (String.not_lt.mp hz)

theorem least?_spec {nodes : List String} {m : String} (h : least? nodes = some m) :
    m ∈ nodes ∧ ∀ y ∈ nodes, m ≤ y := by
  cases nodes with
  | nil => simp [least?] at h
  | cons x xs =>
      obtain rfl := Option.some.inj h
      exact foldl_least xs x

theorem least?_perm {l m : List String} (h : l.Perm m) : least? l = least? m := by
  cases hl : least? l with
  | none =>
      rw [least?_eq_none hl] at h
      rw [List.nil_perm.mp h]
      rfl
  | some x =>
      cases hm : least? m with
      | none =>
          rw [least?_eq_none hm] at h
          rw [List.perm_nil.mp h] at hl
          exact hl.symm
      | some y =>
          obtain ⟨hx, hxle⟩ := least?_spec hl
          obtain ⟨hy, hyle⟩ := least?_spec hm
          rw [String.le_antisymm (hxle y (h.mem_iff.mpr hy)) (hyle x (h.mem_iff.mp hx))]

theorem rotated_head (nodes : List String) : (rotated nodes).head? = least? nodes := by
  unfold rotated
  split
  · rename_i h
    rw [h]
    rfl
  · rename_i m h
    obtain ⟨before, after, hsplit, hbefore⟩ := List.eq_append_cons_of_mem (least?_spec h).1
    have hdrop : nodes.dropWhile (· ≠ m) = m :: after := by
      rw [hsplit, List.dropWhile_append_of_pos]
      · simp
      · intro y hy
        have hne : y ≠ m := fun e => hbefore (e ▸ hy)
        simpa using hne
    rw [h, hdrop]
    rfl

/-- Without repetitions, only one rotation has a given first name. -/
theorem eq_of_isRotated_of_head {l m : List String} (h : l ~r m) (hn : l.Nodup)
    (hhead : l.head? = m.head?) : l = m := by
  obtain ⟨n, hlt, rfl⟩ := List.isRotated_iff_mod.mp h
  cases l with
  | nil => simp
  | cons x l =>
    by_cases hn0 : n < (x :: l).length
    · rw [List.head?_rotate hn0, List.head?_eq_getElem?] at hhead
      have h0 : 0 = n := (List.getElem?_inj (by simp) hn).mp hhead
      rw [← h0, List.rotate_zero]
    · have hlen : n = (x :: l).length := by omega
      rw [hlen, List.rotate_length]

theorem rotated_eq_of_isRotated {l m : List String} (h : l ~r m) (hn : l.Nodup) :
    rotated l = rotated m := by
  have hl := rotated_isRotated l
  apply eq_of_isRotated_of_head (hl.trans (h.trans (rotated_isRotated m).symm))
  · exact hl.nodup_iff.mpr hn
  · rw [rotated_head, rotated_head, least?_perm h.perm]

/-- One signature for all rotations of a cycle that meets no node twice. -/
theorem signature_eq_of_isRotated {c d : List String} (h : opened c ~r opened d)
    (hn : (opened c).Nodup) : signature c = signature d := by
  unfold signature
  rw [rotated_eq_of_isRotated h hn]

/-! ## Rings as they are written -/

/-- Nodes in turn, none of them twice and no arrow in any of their names. -/
structure IsRing (ring : List String) : Prop where
  nonempty : ring ≠ []
  once : ring.Nodup
  plain : ∀ x ∈ ring, Plain x

/-- A ring is written open, or closed by the repetition of its first node. -/
inductive Writes (ring : List String) : List String → Prop where
  | bare : Writes ring ring
  | closed : Writes ring (ring ++ ring.head?.toList)

theorem opened_closed (x : String) (l : List String) : opened (x :: l ++ [x]) = x :: l := by
  have hends : (x :: l ++ [x]).head? = (x :: l ++ [x]).getLast? := by
    rw [List.getLast?_concat]
    rfl
  unfold opened
  rw [if_pos ⟨by simp, hends⟩, List.dropLast_concat]

/-- Only a list of one node begins and ends alike without repeating a node. -/
theorem opened_of_nodup {nodes : List String} (h : nodes.Nodup) : opened nodes = nodes := by
  unfold opened
  split
  · rename_i hclosed
    obtain ⟨hlength, hends⟩ := hclosed
    rw [List.head?_eq_getElem?, List.getLast?_eq_getElem?] at hends
    have hsame : 0 = nodes.length - 1 := (List.getElem?_inj (by omega) h).mp hends
    omega
  · rfl

theorem Writes.opened_eq {ring nodes : List String} (h : Writes ring nodes) (hring : IsRing ring) :
    opened nodes = ring := by
  cases h with
  | bare => exact opened_of_nodup hring.once
  | closed =>
      obtain ⟨x, l, rfl⟩ := List.exists_cons_of_ne_nil hring.nonempty
      exact opened_closed x l

/-- **A signature is a ring up to rotation.** However two rings are written, they have one signature
just when one of them is a rotation of the other. -/
theorem signature_eq_iff_rotation (ring other nodes others : List String) (hring : IsRing ring)
    (hother : IsRing other) (hnodes : Writes ring nodes) (hothers : Writes other others) :
    signature nodes = signature others ↔ ring ~r other := by
  have hopened := hnodes.opened_eq hring
  have hopened' := hothers.opened_eq hother
  constructor
  · intro h
    have hrotated : opened nodes ~r opened others := by
      apply isRotated_of_signature_eq _ _ _ _ h
      · rw [hopened]
        exact hring.plain
      · rw [hopened']
        exact hother.plain
      · rw [hopened]
        exact hring.nonempty
      · rw [hopened']
        exact hother.nonempty
    rwa [hopened, hopened'] at hrotated
  · intro h
    apply signature_eq_of_isRotated
    · rwa [hopened, hopened']
    · rw [hopened]
      exact hring.once

/-- Names with halves of an arrow at their ends. -/
def splinteredRing : List String := ["a -", "> b", "-"]

/-- Written from another node on the ring has the same signature, and walked the other way round it
has another one. -/
theorem splinteredRing_signature :
    IsRing splinteredRing ∧
    signature splinteredRing = signature ["> b", "-", "a -", "> b"] ∧
    signature splinteredRing ≠ signature ["-", "> b", "a -"] := by
  have hring : IsRing splinteredRing := ⟨by decide, by decide, by decide⟩
  have hturned : IsRing ["> b", "-", "a -"] := ⟨by decide, by decide, by decide⟩
  have hback : IsRing ["-", "> b", "a -"] := ⟨by decide, by decide, by decide⟩
  refine ⟨hring, ?_, ?_⟩
  · exact (signature_eq_iff_rotation _ _ _ _ hring hturned .bare .closed).mpr ⟨1, rfl⟩
  · intro h
    have hrotated := (signature_eq_iff_rotation _ _ _ _ hring hback .bare .bare).mp h
    revert hrotated
    decide

/-! ## Hops -/

open ArchGraph.Cycle (hops)

theorem hops_concat (l : List String) (x y : String) :
    hops (l ++ [x, y]) = hops (l ++ [x]) ++ [(x, y)] := by
  induction l with
  | nil => rfl
  | cons a l ih =>
      cases l with
      | nil => rfl
      | cons b l =>
          have hstep : ∀ rest, hops (a :: b :: rest) = (a, b) :: hops (b :: rest) := fun _ => rfl
          rw [List.cons_append, List.cons_append, List.cons_append, List.cons_append, hstep, hstep]
          rw [List.cons_append, List.cons_append] at ih
          rw [ih, List.cons_append]

theorem hops_of_isChain {R : String → String → Prop} {l : List String} (h : l.IsChain R) :
    ∀ p ∈ hops l, R p.1 p.2 := by
  induction l with
  | nil => simp [hops]
  | cons a l ih =>
      cases l with
      | nil => simp [hops]
      | cons b l =>
          rw [List.isChain_cons_cons] at h
          intro p hp
          have hstep : hops (a :: b :: l) = (a, b) :: hops (b :: l) := rfl
          rw [hstep] at hp
          rcases List.mem_cons.mp hp with rfl | hp
          · exact h.1
          · exact ih h.2 p hp

/-- The hops of a closed walk, as those around an open one. -/
theorem hops_closed (x : String) (l : List String) :
    hops (x :: l ++ [x]) = (x :: l).zip ((x :: l).rotate 1) := by
  have hzip : (x :: l ++ [x]).zip (l ++ [x] ++ []) = (x :: l).zip (l ++ [x]) ++ [x].zip [] :=
    List.zip_append (by simp)
  rw [List.rotate_cons_succ, List.rotate_zero]
  simpa [hops] using hzip

theorem mem_hops_of_isRotated {x y : String} {l m : List String} (h : x :: l ~r y :: m)
    {p : String × String} : p ∈ hops (x :: l ++ [x]) ↔ p ∈ hops (y :: m ++ [y]) := by
  obtain ⟨n, hn⟩ := h
  rw [hops_closed, hops_closed, ← hn, List.rotate_rotate, Nat.add_comm, ← List.rotate_rotate]
  have hdistrib : ((x :: l).rotate n).zip (((x :: l).rotate 1).rotate n) =
      ((x :: l).zip ((x :: l).rotate 1)).rotate n :=
    (List.zipWith_rotate_distrib Prod.mk (x :: l) ((x :: l).rotate 1) n (by simp)).symm
  rw [hdistrib, List.mem_rotate]

theorem isChain_hops (l : List String) : l.IsChain (fun u v => (u, v) ∈ hops l) := by
  induction l with
  | nil => exact .nil
  | cons a l ih =>
      cases l with
      | nil => exact .singleton a
      | cons b l =>
          have hstep : hops (a :: b :: l) = (a, b) :: hops (b :: l) := rfl
          rw [hstep]
          exact .cons_cons List.mem_cons_self (ih.imp (fun _ _ h => List.mem_cons_of_mem _ h))

/-- Around a ring of distinct nodes each node has one successor. -/
theorem hops_functional {x : String} {l : List String} (hn : (x :: l).Nodup) {u v w : String}
    (hv : (u, v) ∈ hops (x :: l ++ [x])) (hw : (u, w) ∈ hops (x :: l ++ [x])) : v = w := by
  have hsources : (hops (x :: l ++ [x])).map Prod.fst = x :: l := by
    rw [hops_closed, List.map_fst_zip (by simp)]
  have h := List.inj_on_of_nodup_map (hsources ▸ hn) hv hw rfl
  exact congrArg Prod.snd h

/-- Where each node has one successor, two ways from a node to their first visit of another
agree. -/
theorem walk_unique {R : String → String → Prop} (hR : ∀ u v w, R u v → R u w → v = w)
    {u v : String} {p q : List String} (hp : (u :: p ++ [v]).IsChain R)
    (hq : (u :: q ++ [v]).IsChain R) (hvp : v ∉ p) (hvq : v ∉ q) : p = q := by
  induction p generalizing u q with
  | nil =>
      cases q with
      | nil => rfl
      | cons z q =>
          have huv : R u v := (List.isChain_cons_cons.mp hp).1
          have huz : R u z := (List.isChain_cons_cons.mp hq).1
          exact absurd (hR u v z huv huz ▸ List.mem_cons_self) hvq
  | cons y p ih =>
      have huy : R u y := (List.isChain_cons_cons.mp hp).1
      cases q with
      | nil =>
          have huv : R u v := (List.isChain_cons_cons.mp hq).1
          exact absurd (hR u v y huv huy ▸ List.mem_cons_self) hvp
      | cons z q =>
          have huz : R u z := (List.isChain_cons_cons.mp hq).1
          obtain rfl := hR u y z huy huz
          rw [ih (List.isChain_cons_cons.mp hp).2 (List.isChain_cons_cons.mp hq).2
            (fun h => hvp (List.mem_cons_of_mem _ h)) (fun h => hvq (List.mem_cons_of_mem _ h))]

/-- Whatever goes round once inside a ring is the ring itself, from another node on. -/
theorem isRotated_of_hops_subset {x y : String} {l m : List String} (hn : (x :: l).Nodup)
    (hy : y ∉ m) (hsub : ∀ p ∈ hops (y :: m ++ [y]), p ∈ hops (x :: l ++ [x])) :
    y :: m ~r x :: l := by
  let R : String → String → Prop := fun u v => (u, v) ∈ hops (x :: l ++ [x])
  have hR : ∀ u v w, R u v → R u w → v = w := fun u v w => hops_functional hn
  have hwalk : (y :: m ++ [y]).IsChain R := (isChain_hops _).imp (fun u v h => hsub (u, v) h)
  have hmem : y ∈ x :: l := by
    obtain ⟨z, rest, hz⟩ : ∃ z rest, m ++ [y] = z :: rest := List.exists_cons_of_ne_nil (by simp)
    have hhop : (y, z) ∈ hops (y :: m ++ [y]) := by
      rw [List.cons_append, hz]
      exact List.mem_cons_self
    have hin := hsub _ hhop
    rw [hops_closed] at hin
    exact (List.of_mem_zip hin).1
  -- Start the ring at `y`: both walks then leave `y` and end at their first return to it.
  obtain ⟨before, after, hsplit⟩ := List.append_of_mem hmem
  have hrot : x :: l ~r y :: (after ++ before) := by
    rw [hsplit]
    exact List.isRotated_append
  have hring : (y :: (after ++ before) ++ [y]).IsChain R :=
    (isChain_hops _).imp (fun u v h => (mem_hops_of_isRotated hrot).mpr h)
  have hfresh := (List.nodup_cons.mp (hrot.nodup_iff.mp hn)).1
  have hsame : m = after ++ before :=
    walk_unique hR hwalk hring hy hfresh
  rw [hsame]
  exact hrot.symm

end ArchGraph.Adjacency
