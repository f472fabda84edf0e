import ArchGraph.Binding
import ArchGraph.Proofs.AddressQueries

/-!
How names of types are cut: blanks at their ends, type arguments, and the package. A name without
type arguments and without blanks at its ends is `Bare`; cutting such a name again changes nothing.
Without its package it is bare still, unless a blank stands right behind its last dot
(`Bare.shortName`).
-/

namespace ArchGraph

namespace Text

/-! ## Trimming -/

/-- What is trimmed at the end is blank. -/
theorem exists_trim_append (cs : List Char) :
    ∃ blanks, cs.dropWhile isBlank = trim cs ++ blanks ∧ ∀ c ∈ blanks, isBlank c = true := by
  refine ⟨((cs.dropWhile isBlank).reverse.takeWhile isBlank).reverse, ?_, ?_⟩
  · unfold trim trimWhere
    rw [← List.reverse_append, List.takeWhile_append_dropWhile, List.reverse_reverse]
  · intro c hc
    exact List.mem_takeWhile_imp (List.mem_reverse.mp hc)

theorem mem_of_mem_trim {c : Char} {cs : List Char} (h : c ∈ trim cs) : c ∈ cs := by
  obtain ⟨blanks, hcs, _⟩ := exists_trim_append cs
  apply (List.dropWhile_suffix isBlank).mem
  rw [hcs]
  exact List.mem_append_left _ h

theorem beginsPlain_dropWhile (cs : List Char) : BeginsPlain (cs.dropWhile isBlank) := by
  intro c hc
  have hhead := List.head?_dropWhile_not isBlank cs
  rw [Option.mem_def.mp hc] at hhead
  simpa using hhead

theorem beginsPlain_trim (cs : List Char) : BeginsPlain (trim cs) := by
  obtain ⟨blanks, hcs, _⟩ := exists_trim_append cs
  intro c hc
  apply beginsPlain_dropWhile cs
  rw [hcs, List.head?_append, Option.mem_def.mp hc]
  rfl

theorem endsPlain_trim (cs : List Char) : EndsPlain (trim cs) := by
  intro c hc
  apply beginsPlain_dropWhile (cs.dropWhile isBlank).reverse
  rwa [trim, trimWhere, List.getLast?_reverse] at hc

/-- What ends in a character that is not blank is not trimmed away. -/
theorem trim_ne_nil {cs : List Char} (hne : cs ≠ []) (h : EndsPlain cs) : trim cs ≠ [] := by
  intro htrim
  obtain ⟨blanks, hdrop, hblanks⟩ := exists_trim_append cs
  rw [htrim, List.nil_append] at hdrop
  cases blanks with
  | nil =>
      have hall := List.dropWhile_eq_nil_iff.mp hdrop
      have hlast := h _ (List.getLast?_eq_some_getLast hne)
      rw [hall _ (List.getLast_mem hne)] at hlast
      cases hlast
  | cons c blanks =>
      have hfirst := beginsPlain_dropWhile cs c (by rw [hdrop]; rfl)
      rw [hblanks c List.mem_cons_self] at hfirst
      cases hfirst

theorem trim_eq_self_of_not_blank {cs : List Char} (h : ∀ c ∈ cs, isBlank c = false) :
    trim cs = cs :=
  trim_eq_self (fun c hc => h c (List.mem_of_mem_head? hc))
    (fun c hc => h c (List.mem_of_getLast? hc))

/-! ## Packages -/

theorem afterLast_suffix (c : Char) (cs : List Char) : afterLast c cs <:+ cs := by
  rw [← List.reverse_prefix]
  unfold afterLast
  rw [List.reverse_reverse]
  exact List.takeWhile_prefix _

theorem notMem_afterLast (c : Char) (cs : List Char) : c ∉ afterLast c cs := by
  intro hin
  have htaken := List.mem_takeWhile_imp (List.mem_reverse.mp hin)
  simp at htaken

theorem afterLast_eq_self {c : Char} {cs : List Char} (h : c ∉ cs) : afterLast c cs = cs := by
  have hall : cs.reverse.takeWhile (· != c) = cs.reverse := by
    rw [List.takeWhile_eq_self_iff]
    intro d hd
    rw [bne_iff_ne]
    rintro rfl
    exact h (List.mem_reverse.mp hd)
  rw [afterLast, hall, List.reverse_reverse]

theorem afterLast_eq_nil_iff {c : Char} {cs : List Char} (hne : cs ≠ []) :
    afterLast c cs = [] ↔ cs.getLast? = some c := by
  obtain ⟨front, last, rfl⟩ := (List.eq_nil_or_concat' cs).resolve_left hne
  by_cases hlast : last = c
  · simp [afterLast, hlast]
  · simp [afterLast, hlast]

theorem notMem_before (c : Char) (cs : List Char) : c ∉ before c cs := by
  intro hin
  have htaken := List.mem_takeWhile_imp hin
  simp at htaken

end Text

namespace Binding

open Text

/-- A name of a type without type arguments and without blanks at its ends. -/
structure Bare (cs : List Char) : Prop where
  plain : '<' ∉ cs
  begins : BeginsPlain cs
  ends : EndsPlain cs

theorem toList_withoutArguments (t : String) :
    (withoutArguments t).toList = trim (before '<' t.toList) := by
  rw [withoutArguments, onChars, String.toList_ofList]

theorem Bare.withoutArguments {t : String} (h : Bare t.toList) : withoutArguments t = t := by
  apply String.toList_injective
  rw [toList_withoutArguments, Url.before_eq_self h.plain, trim_eq_self h.begins h.ends]

theorem bare_withoutArguments (t : String) : Bare (withoutArguments t).toList := by
  rw [toList_withoutArguments]
  exact ⟨fun hin => notMem_before _ _ (mem_of_mem_trim hin), beginsPlain_trim _, endsPlain_trim _⟩

/-- The name without its package; one that ends in a dot is kept as it is. -/
def shortName (t : String) : String := (given? (Identifier.simpleName? t)).getD t

theorem shortName_eq (t : String) : shortName t =
    if afterLast '.' t.toList = [] then t else String.ofList (afterLast '.' t.toList) := by
  unfold shortName Identifier.simpleName? onChars
  by_cases hempty : t = ""
  · subst hempty
    rfl
  · by_cases hlast : afterLast '.' t.toList = []
    · simp [given?, Option.filter_some, hempty, hlast]
    · simp [given?, Option.filter_some, hempty, hlast]

theorem shortName_of_notMem {t : String} (h : '.' ∉ t.toList) : shortName t = t := by
  rw [shortName_eq, afterLast_eq_self h, String.ofList_toList, ite_self]

/-- A short name with a dot in it is the whole name. -/
theorem shortName_of_mem {t : String} (h : '.' ∈ (shortName t).toList) : shortName t = t := by
  rw [shortName_eq] at h ⊢
  split
  · rfl
  · next hne =>
    rw [if_neg hne, String.toList_ofList] at h
    exact absurd h (notMem_afterLast _ _)

theorem shortName_suffix (t : String) : (shortName t).toList <:+ t.toList := by
  rw [shortName_eq]
  split
  · exact List.suffix_refl _
  · rw [String.toList_ofList]
    exact afterLast_suffix _ _

theorem shortName_ne_nil {t : String} (h : t.toList ≠ []) : (shortName t).toList ≠ [] := by
  rw [shortName_eq]
  split
  · exact h
  · rwa [String.toList_ofList]

/-- The short name ends as the whole name does. -/
theorem endsPlain_shortName {t : String} (h : EndsPlain t.toList) :
    EndsPlain (shortName t).toList := by
  by_cases hempty : t.toList = []
  · have hnil : (shortName t).toList = [] := List.suffix_nil.mp (hempty ▸ shortName_suffix t)
    rw [hnil]
    simp [EndsPlain]
  · intro c hc
    apply h
    obtain ⟨front, hfront⟩ := shortName_suffix t
    rw [← hfront, List.getLast?_append_of_ne_nil _ (shortName_ne_nil hempty)]
    exact hc

/-- No blank stands right behind the last dot. -/
def Tight (t : String) : Prop := BeginsPlain (afterLast '.' t.toList)

instance (t : String) : Decidable (Tight t) := inferInstanceAs (Decidable (BeginsPlain _))

theorem Bare.shortName {t : String} (h : Bare t.toList) (htight : Tight t) :
    Bare (Binding.shortName t).toList := by
  refine ⟨fun hin => h.plain ((shortName_suffix t).mem hin), ?_, endsPlain_shortName h.ends⟩
  rw [shortName_eq]
  split
  · exact h.begins
  · rw [String.toList_ofList]
    exact htight

end Binding

end ArchGraph
