import ArchGraph.Proofs.ExactMatch
import ArchGraph.Proofs.Overloads
import ArchGraph.Proofs.Scanning

/-!
Parameter types read from a signature. A signature is cut at the commas outside angle brackets, and
of each declaration the first word counts that is not `final`. A type may have commas and blanks
among its arguments, so the first word can end in the midst of them. Nothing that counts is lost,
though:

* angle brackets that are closed again keep their commas inside (`closesAll`,
  `splitTop_of_closesAll`), so the declarations are found as they were written
  (`declarations_parameterList`);
* the first word of a type goes as far as its arguments begin, and no further part of it counts
  (`declaredType?_declared`).

So a method is named by its signature as it is by the list of its types (`method_named_both_ways`).
-/

namespace ArchGraph

namespace Text

theorem trim_cons_blank {c : Char} (hc : isBlank c = true) (cs : List Char) :
    trim (c :: cs) = trim cs := by
  unfold trim trimWhere
  rw [List.dropWhile_cons_of_pos hc]

/-- A text that has something in it, and no blank at either end. -/
structure Tidy (cs : List Char) : Prop where
  nonempty : cs ≠ []
  begins : BeginsPlain cs
  ends : EndsPlain cs

theorem Tidy.trim {cs : List Char} (h : Tidy cs) : trim cs = cs := trim_eq_self h.begins h.ends

theorem Tidy.append {cs ds : List Char} (hcs : Tidy cs) (hds : Tidy ds) (middle : List Char) :
    Tidy (cs ++ (middle ++ ds)) := by
  obtain ⟨c, rest, rfl⟩ := List.exists_cons_of_ne_nil hcs.nonempty
  refine ⟨by simp, hcs.begins, ?_⟩
  rw [← List.append_assoc]
  exact EndsPlain.append _ hds.nonempty hds.ends

theorem tidy_of_not_blank {cs : List Char} (hne : cs ≠ []) (h : ∀ c ∈ cs, isBlank c = false) :
    Tidy cs where
  nonempty := hne
  begins := fun c hc => h c (List.mem_of_mem_head? hc)
  ends := fun c hc => h c (List.mem_of_getLast? hc)

theorem extendHead_foldr (front piece : List Char) (rest : List (List Char)) :
    front.foldr extendHead (piece :: rest) = (front ++ piece) :: rest := by
  induction front with
  | nil => rfl
  | cons c front ih => rw [List.foldr_cons, ih, extendHead, List.cons_append]

theorem words_append_cons {first : List Char} (hne : first ≠ [])
    (hfirst : ∀ c ∈ first, (!isBlank c) = true) {blank : Char} (hblank : isBlank blank = true)
    (rest : List Char) : words (first ++ blank :: rest) = first :: words rest := by
  have hone : fields isBlank first = [first] :=
    fields_eq_singleton hne fun c hc => by simpa using hfirst c hc
  unfold words
  rw [fields_append_cons hblank, hone, List.singleton_append]

/-- The first word of a text goes up to its first blank. -/
theorem exists_words_eq {cs : List Char} (h : Tidy cs) (rest : List Char) :
    ∃ more, words (cs ++ ' ' :: rest) = cs.takeWhile (fun c => !isBlank c) :: more := by
  by_cases hall : ∀ c ∈ cs, (!isBlank c) = true
  · rw [List.takeWhile_eq_self_iff.mpr hall]
    exact ⟨_, words_append_cons h.nonempty hall (by decide) rest⟩
  · obtain ⟨first, blank, more, rfl, hfirst, hcut⟩ := exists_first_failure hall
    have hblank : isBlank blank = true := by simpa using hcut
    have hne : first ≠ [] := by
      rintro rfl
      have hplain := h.begins blank rfl
      rw [hblank] at hplain
      cases hplain
    rw [takeWhile_append_cons hfirst hcut, List.append_assoc, List.cons_append]
    exact ⟨_, words_append_cons hne hfirst hblank _⟩

end Text

namespace Identifier

open Text

/-! ## Declarations -/

/-- A character that neither cuts a list of declarations nor opens or closes a bracket. -/
def isInert (c : Char) : Bool := c != ',' && c != '<' && c != '>'

/-- A character of a name: no blank, no comma and no angle bracket. -/
def isWordChar (c : Char) : Bool := !isBlank c && isInert c

/-- Whether the text closes its angle brackets, and as many before it, and no others. -/
def closesAll : Nat → List Char → Bool
  | before, [] => before == 0
  | before, c :: cs =>
    if c = '<' then closesAll (before + 1) cs
    else if c = '>' then
      match before with
      | 0 => false
      | before + 1 => closesAll before cs
    else closesAll before cs

/-- A parameter with its type: a name, and perhaps arguments in angle brackets, in which the
brackets are balanced. A type has one of the two at least, and it is not called `final`. -/
structure Parameter where
  base : List Char
  arguments : Option (List Char)
  name : List Char
  isFinal : Bool
  base_word : base.all isWordChar = true
  base_ne : base ≠ "final".toList
  arguments_closed : arguments.all (closesAll 0) = true
  typed : base ≠ [] ∨ arguments.isSome = true
  name_word : name.all isWordChar = true
  named : name ≠ []

namespace Parameter

variable (p : Parameter)

def type : List Char :=
  match p.arguments with
  | none => p.base
  | some inner => p.base ++ '<' :: (inner ++ ['>'])

/-- The parameter as a signature declares it. -/
def declared : List Char :=
  if p.isFinal then "final".toList ++ ' ' :: (p.type ++ ' ' :: p.name) else p.type ++ ' ' :: p.name

end Parameter

theorem isWordChar_iff {c : Char} :
    isWordChar c = true ↔ isBlank c = false ∧ isInert c = true := by
  simp [isWordChar]

theorem isInert_iff {c : Char} : isInert c = true ↔ c ≠ ',' ∧ c ≠ '<' ∧ c ≠ '>' := by
  simp [isInert, and_assoc]

/-! ## Commas outside brackets -/

/-- The text is not cut, and leaves the depth as it was. -/
def Whole (cs : List Char) : Prop :=
  ∀ rest, splitTop 0 (cs ++ rest) = cs.foldr extendHead (splitTop 0 rest)

theorem splitTop_cons {depth : Int} {c : Char} (h : c ≠ ',' ∨ depth ≠ 0) (cs : List Char) :
    splitTop depth (c :: cs) = extendHead c (splitTop (depth + depthChange c) cs) := by
  have hcut : (c == ',' && depth == 0) = false := by
    rw [Bool.and_eq_false_iff, beq_eq_false_iff_ne, beq_eq_false_iff_ne]
    exact h
  rw [splitTop, hcut]
  rfl

theorem depthChange_eq_zero {c : Char} (hopen : c ≠ '<') (hclose : c ≠ '>') :
    depthChange c = 0 := by
  simp [depthChange, hopen, hclose]

theorem whole_of_inert {cs : List Char} (h : cs.all isInert = true) : Whole cs := by
  intro rest
  induction cs with
  | nil => rfl
  | cons c cs ih =>
      rw [List.all_cons, Bool.and_eq_true] at h
      obtain ⟨hc, hcs⟩ := h
      obtain ⟨hcomma, hopen, hclose⟩ := isInert_iff.mp hc
      rw [List.cons_append, splitTop_cons (.inl hcomma), depthChange_eq_zero hopen hclose,
        Int.add_zero, ih hcs, List.foldr_cons]

theorem Whole.append {cs ds : List Char} (hcs : Whole cs) (hds : Whole ds) : Whole (cs ++ ds) := by
  intro rest
  rw [List.append_assoc, hcs, hds, List.foldr_append]

/-- Inside brackets nothing is cut, up to where all are closed. -/
theorem splitTop_of_closesAll {before : Nat} {cs : List Char} (h : closesAll before cs = true)
    (rest : List Char) :
    splitTop (before + 1) (cs ++ rest) = cs.foldr extendHead (splitTop 1 rest) := by
  induction cs generalizing before with
  | nil =>
      obtain rfl : before = 0 := by simpa [closesAll] using h
      rfl
  | cons c cs ih =>
      have hdepth : (before : Int) + 1 ≠ 0 := by omega
      rw [List.cons_append, splitTop_cons (.inr hdepth), List.foldr_cons]
      congr 1
      by_cases hopen : c = '<'
      · subst hopen
        have hchange : (before : Int) + 1 + depthChange '<' = ((before + 1 : Nat) : Int) + 1 := by
          simp [depthChange]
        rw [hchange]
        apply ih
        simpa [closesAll] using h
      · by_cases hclose : c = '>'
        · subst hclose
          cases before with
          | zero => simp [closesAll] at h
          | succ before =>
              have hchange :
                  ((before + 1 : Nat) : Int) + 1 + depthChange '>' = (before : Int) + 1 := by
                simp [depthChange]
              rw [hchange]
              apply ih
              simpa [closesAll] using h
        · rw [depthChange_eq_zero hopen hclose, Int.add_zero]
          apply ih
          simpa [closesAll, hopen, hclose] using h

/-- Arguments in angle brackets are whole, whatever is inside. -/
theorem whole_arguments {inner : List Char} (h : closesAll 0 inner = true) :
    Whole ('<' :: (inner ++ ['>'])) := by
  intro rest
  have hopened : splitTop 0 ('<' :: (inner ++ ['>'] ++ rest)) =
      extendHead '<' (splitTop 1 (inner ++ ('>' :: rest))) := by
    rw [splitTop_cons (.inl (by decide))]
    simp [depthChange]
  have hclosed : splitTop 1 ('>' :: rest) = extendHead '>' (splitTop 0 rest) := by
    rw [splitTop_cons (.inl (by decide))]
    simp [depthChange]
  have hinner : splitTop 1 (inner ++ '>' :: rest) =
      inner.foldr extendHead (extendHead '>' (splitTop 0 rest)) := by
    rw [← hclosed]
    exact splitTop_of_closesAll h ('>' :: rest)
  rw [List.cons_append, hopened, hinner, List.foldr_cons, List.foldr_append]
  rfl

theorem splitTop_ne_nil (depth : Int) (cs : List Char) : splitTop depth cs ≠ [] := by
  induction cs generalizing depth with
  | nil => simp [splitTop]
  | cons c cs ih =>
      obtain ⟨piece, rest, hpieces⟩ := List.exists_cons_of_ne_nil (ih (depth + depthChange c))
      unfold splitTop
      split
      · simp
      · simp [hpieces, extendHead]

theorem joinWith_cons_cons (d e : List Char) (es : List (List Char)) :
    joinWith [',', ' '] (d :: e :: es) = d ++ ([',', ' '] ++ joinWith [',', ' '] (e :: es)) := by
  simp [joinWith]

/-- Cutting a list of declarations at its commas and trimming the pieces gives them back. -/
theorem map_trim_splitTop {ds : List (List Char)} (hne : ds ≠ [])
    (h : ∀ d ∈ ds, Whole d ∧ Tidy d) :
    (splitTop 0 (joinWith [',', ' '] ds)).map trim = ds := by
  induction ds with
  | nil => exact absurd rfl hne
  | cons d ds ih =>
      obtain ⟨⟨hwhole, htidy⟩, hds⟩ := List.forall_mem_cons.mp h
      cases ds with
      | nil =>
          have hone : splitTop 0 (joinWith [',', ' '] [d]) = [d] := by
            have hd := hwhole []
            rw [splitTop, extendHead_foldr] at hd
            simpa [joinWith] using hd
          rw [hone, List.map_singleton, htidy.trim]
      | cons e es =>
          have hcut : splitTop 0 ([',', ' '] ++ joinWith [',', ' '] (e :: es)) =
              [] :: extendHead ' ' (splitTop 0 (joinWith [',', ' '] (e :: es))) := by
            rw [List.cons_append, List.singleton_append, splitTop]
            simp [splitTop_cons, depthChange]
          have hrest := ih (List.cons_ne_nil e es) hds
          rw [joinWith_cons_cons, hwhole, hcut, extendHead_foldr, List.append_nil, List.map_cons,
            htidy.trim]
          congr 1
          -- The blank behind the comma goes with the trimming.
          obtain ⟨piece, rest, hpieces⟩ :=
            List.exists_cons_of_ne_nil (splitTop_ne_nil 0 (joinWith [',', ' '] (e :: es)))
          rw [hpieces] at hrest ⊢
          rw [extendHead, List.map_cons, trim_cons_blank (by decide), ← List.map_cons]
          exact hrest

namespace Parameter

variable (p : Parameter)

theorem wordChar_of_mem_base {c : Char} (hc : c ∈ p.base) : isWordChar c = true :=
  List.all_eq_true.mp p.base_word c hc

theorem wordChar_of_mem_name {c : Char} (hc : c ∈ p.name) : isWordChar c = true :=
  List.all_eq_true.mp p.name_word c hc

theorem whole_base : Whole p.base :=
  whole_of_inert
    (List.all_eq_true.mpr fun _ hc => (isWordChar_iff.mp (p.wordChar_of_mem_base hc)).2)

theorem whole_name : Whole p.name :=
  whole_of_inert
    (List.all_eq_true.mpr fun _ hc => (isWordChar_iff.mp (p.wordChar_of_mem_name hc)).2)

theorem whole_type : Whole p.type := by
  unfold type
  split
  · exact p.whole_base
  · rename_i inner hinner
    have hclosed := p.arguments_closed
    rw [hinner] at hclosed
    exact p.whole_base.append (whole_arguments hclosed)

theorem whole_declared : Whole p.declared := by
  have hblank : Whole [' '] := whole_of_inert (by decide)
  have hfinal : Whole "final".toList := whole_of_inert (by decide)
  have hdeclared : Whole (p.type ++ ' ' :: p.name) :=
    p.whole_type.append (hblank.append p.whole_name)
  unfold declared
  split
  · exact hfinal.append (hblank.append hdeclared)
  · exact hdeclared

theorem not_blank_of_mem_base : ∀ c ∈ p.base, isBlank c = false := fun _ hc =>
  (isWordChar_iff.mp (p.wordChar_of_mem_base hc)).1

theorem tidy_name : Tidy p.name :=
  tidy_of_not_blank p.named fun _ hc => (isWordChar_iff.mp (p.wordChar_of_mem_name hc)).1

theorem tidy_type : Tidy p.type := by
  unfold type
  split
  · rename_i hnone
    exact tidy_of_not_blank (p.typed.resolve_right (by simp [hnone])) p.not_blank_of_mem_base
  · rename_i inner _
    have hinner : Tidy ('<' :: (inner ++ ['>'])) :=
      @Tidy.append ['<'] ['>'] ⟨by simp, by decide, by decide⟩ ⟨by simp, by decide, by decide⟩ inner
    by_cases hbase : p.base = []
    · rwa [hbase]
    · exact (tidy_of_not_blank hbase p.not_blank_of_mem_base).append hinner []

theorem tidy_declared : Tidy p.declared := by
  have hdeclared : Tidy (p.type ++ ' ' :: p.name) := p.tidy_type.append p.tidy_name [' ']
  have hfinal : Tidy "final".toList := ⟨by decide, by decide, by decide⟩
  unfold declared
  split
  · exact hfinal.append hdeclared [' ']
  · exact hdeclared

/-! ## Types of declarations -/

theorem bracket_notMem_base : '<' ∉ p.base := by
  intro hin
  have hbracket := p.wordChar_of_mem_base hin
  revert hbracket
  decide

/-- The arguments begin where the name of the type ends, in any part of it that has it whole. -/
theorem before_takeWhile : before '<' (p.type.takeWhile fun c => !isBlank c) = p.base := by
  have hopen := p.bracket_notMem_base
  have hwhile : ∀ c ∈ p.base, (!isBlank c) = true := fun c hc => by
    rw [p.not_blank_of_mem_base c hc]
    rfl
  unfold type
  split
  · rw [List.takeWhile_eq_self_iff.mpr hwhile, Url.before_eq_self hopen]
  · rw [List.takeWhile_append_of_pos hwhile, List.takeWhile_cons_of_pos (by decide),
      Url.before_append hopen]
    simp [before]

theorem simpleType_type : simpleType p.type = afterLast '.' p.base := by
  have hopen := p.bracket_notMem_base
  have hbefore : before '<' p.type = p.base := by
    unfold type
    split
    · exact Url.before_eq_self hopen
    · rw [Url.before_append hopen]
      simp [before]
  rw [simpleType, p.tidy_type.trim, hbefore]

/-- The first word of a type is not `final`: either it is all of the name, or an argument begins in
it. -/
theorem takeWhile_type_ne : (p.type.takeWhile fun c => !isBlank c) ≠ "final".toList := by
  intro hfinal
  have hbefore := p.before_takeWhile
  rw [hfinal] at hbefore
  exact p.base_ne hbefore.symm

theorem declaredType?_declared : declaredType? p.declared = some (simpleType p.type) := by
  obtain ⟨more, hwords⟩ := exists_words_eq p.tidy_type p.name
  have hfirst : ((words p.declared).filter (· != "final".toList)).head? =
      some (p.type.takeWhile fun c => !isBlank c) := by
    have hkept : ((words (p.type ++ ' ' :: p.name)).filter (· != "final".toList)).head? =
        some (p.type.takeWhile fun c => !isBlank c) := by
      rw [hwords, List.filter_cons_of_pos (by simpa using p.takeWhile_type_ne), List.head?_cons]
    unfold declared
    split
    · rw [words_append_cons (by decide) (List.all_eq_true.mp (by decide)) (by decide),
        List.filter_cons_of_neg (by decide)]
      exact hkept
    · exact hkept
  have htrim :
      trim (p.type.takeWhile fun c => !isBlank c) = p.type.takeWhile fun c => !isBlank c := by
    apply trim_eq_self_of_not_blank
    intro c hc
    simpa using List.mem_takeWhile_imp hc
  rw [declaredType?, hfirst, Option.map_some, p.simpleType_type, simpleType, htrim,
    p.before_takeWhile]

end Parameter

/-! ## Signatures -/

/-- The list of parameters in a signature. -/
def parameterList (ps : List Parameter) : List Char := joinWith [',', ' '] (ps.map (·.declared))

/-- A signature: whatever stands in front, and the parameters in parentheses. -/
def signatureOf (front : List Char) (ps : List Parameter) : String :=
  String.ofList (front ++ '(' :: (parameterList ps ++ [')']))

theorem parameterText?_signatureOf {front : List Char}
    (hfront : '(' ∉ front) (ps : List Parameter) :
    parameterText? (signatureOf front ps).toList = some (parameterList ps) := by
  have hopen : (signatureOf front ps).toList.dropWhile (· != '(') =
      '(' :: (parameterList ps ++ [')']) := by
    rw [signatureOf, String.toList_ofList, List.dropWhile_append_of_pos]
    · simp
    · intro c hc
      rw [bne_iff_ne]
      rintro rfl
      exact hfront hc
  rw [parameterText?, hopen]
  simp [beforeLast?]

theorem tidy_joined {ds : List (List Char)} (hne : ds ≠ []) (h : ∀ d ∈ ds, Tidy d) :
    Tidy (joinWith [',', ' '] ds) := by
  induction ds with
  | nil => exact absurd rfl hne
  | cons d ds ih =>
      obtain ⟨hd, hds⟩ := List.forall_mem_cons.mp h
      cases ds with
      | nil => simpa [joinWith] using hd
      | cons e es =>
          rw [joinWith_cons_cons]
          exact hd.append (ih (List.cons_ne_nil e es) hds) [',', ' ']

theorem declarations_parameterList {ps : List Parameter} (hne : ps ≠ []) :
    declarations (trim (parameterList ps)) = ps.map (·.declared) := by
  have hds : ps.map (·.declared) ≠ [] := by simpa using hne
  have htidy : ∀ d ∈ ps.map (·.declared), Tidy d :=
    List.forall_mem_map.mpr fun p _ => p.tidy_declared
  have hwhole : ∀ d ∈ ps.map (·.declared), Whole d ∧ Tidy d :=
    List.forall_mem_map.mpr fun p _ => ⟨p.whole_declared, p.tidy_declared⟩
  unfold declarations parameterList
  rw [(tidy_joined hds htidy).trim, map_trim_splitTop hds hwhole, List.filter_eq_self]
  intro d hd
  simpa using (htidy d hd).nonempty

/-- Of each parameter the name of its type counts, without its package and its arguments. -/
def shortTypes (ps : List Parameter) : List Char :=
  joinWith [','] (ps.map fun p => afterLast '.' p.base)

theorem signatureTypes_signatureOf {front : List Char}
    (hfront : '(' ∉ front) (ps : List Parameter) :
    signatureTypes (signatureOf front ps).toList = shortTypes ps := by
  rw [signatureTypes, parameterText?_signatureOf hfront]
  by_cases hne : ps = []
  · rw [hne]
    decide
  · have htypes : (ps.map (·.declared)).filterMap declaredType? =
        ps.map fun p => afterLast '.' p.base := by
      rw [List.filterMap_map]
      refine List.filterMap_eq_map_iff_forall_eq_some.mpr fun p _ => ?_
      rw [← p.simpleType_type]
      exact p.declaredType?_declared
    simp only [declarations_parameterList hne, htypes]
    rfl

theorem parameterTypes_types (ps : List Parameter) :
    parameterTypes (ps.map fun p => String.ofList p.type) none = shortTypes ps := by
  by_cases hne : ps = []
  · rw [hne]
    decide
  · rw [parameterTypes_of_ne_nil (by simpa using hne), List.map_map]
    simp only [Function.comp_def, String.toList_ofList, Parameter.simpleType_type]
    rfl

/-- **A method has one name.** Named by the list of its types or by its signature, it gets the same
identifier, whatever arguments its types have, whatever stands in front of the parameters and
whichever of them are `final`. -/
theorem method_named_both_ways (owner name : String) (front : List Char) (hfront : '(' ∉ front)
    (ps : List Parameter) :
    method owner name (ps.map fun p => String.ofList p.type) none =
      method owner name [] (some (signatureOf front ps)) ∧
    method owner name [] (some (signatureOf front ps)) =
      "method:" ++ owner ++ "." ++ name ++ "(" ++ String.ofList (shortTypes ps) ++ ")" := by
  have hsignature : parameterTypes [] (some (signatureOf front ps)) = shortTypes ps :=
    signatureTypes_signatureOf hfront ps
  unfold method
  rw [parameterTypes_types, hsignature]
  exact ⟨rfl, rfl⟩

/-- A map from texts to lists: a type with commas, blanks and dots among its arguments. -/
def stockByShop : Parameter where
  base := "java.util.Map".toList
  arguments := some "String, java.util.List<Item<?, ? super A>>".toList
  name := "stock".toList
  isFinal := true
  base_word := by decide
  base_ne := by decide
  arguments_closed := by decide
  typed := .inl (by decide)
  name_word := by decide
  named := by decide

def amount : Parameter where
  base := "int".toList
  arguments := none
  name := "amount".toList
  isFinal := false
  base_word := by decide
  base_ne := by decide
  arguments_closed := by decide
  typed := .inl (by decide)
  name_word := by decide
  named := by decide

theorem add_named_both_ways :
    signatureOf "public void add".toList [stockByShop, amount] =
      "public void add(final java.util.Map<String, java.util.List<Item<?, ? super A>>> stock, " ++
        "int amount)" ∧
    method "shop.Stock" "add"
        ["java.util.Map<String, java.util.List<Item<?, ? super A>>>", "int"] none =
      "method:shop.Stock.add(Map,int)" ∧
    method "shop.Stock" "add" []
        (some (signatureOf "public void add".toList [stockByShop, amount])) =
      "method:shop.Stock.add(Map,int)" := by
  obtain ⟨hsame, hname⟩ := method_named_both_ways "shop.Stock" "add" "public void add".toList
    (by decide) [stockByShop, amount]
  have hadd : method "shop.Stock" "add" []
      (some (signatureOf "public void add".toList [stockByShop, amount])) =
      "method:shop.Stock.add(Map,int)" := by
    rw [hname]
    decide
  exact ⟨by decide, hsame.trans hadd, hadd⟩

end Identifier

end ArchGraph
