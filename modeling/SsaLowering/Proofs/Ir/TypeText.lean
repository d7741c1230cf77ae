/-
# SsaLowering.Proofs.Ir.TypeText -- the text of a type can be read back

Read from the left the text of a type cannot be told from the beginning of another one:
a function type starts with its return type, so `i8` may go on as `i8 (i8, ptr)`.  From
the right it can.  The last sign says which kind of type it is, an aggregate or a list of
parameters is read up to the sign that opens it, and the return type is what is left of a
function type when its parameters are gone.  So the texts of types, read from the right,
are free of prefixes (`Ty.ReadsBack`), whatever stands to their left.

Only two things are lost in a text.  The one-bit integer is written as the boolean, and a
named struct is written by its name alone: types without named structs have one text iff
they are equal up to the first (`Ty.text_eq_iff`).
-/
import SsaLowering.Ir.Listing
import SsaLowering.Proofs.Ir.LocalNames

namespace SsaLowering.Ir

set_option autoImplicit false

/-! ## Types up to the one-bit integer -/

namespace Ty

mutual

/-- The type with `bool` for each `int 1` in it. -/
def canonical : Ty → Ty
  | .void => .void
  | .bool => .bool
  | .int bits => if bits = 1 then .bool else .int bits
  | .double => .double
  | .ptr => .ptr
  | .array element len => .array (canonical element) len
  | .struct name fields => .struct name (canonicalAll fields)
  | .function params ret => .function (canonicalAll params) (canonical ret)

/-- The types with `bool` for each `int 1` in them. -/
def canonicalAll : List Ty → List Ty
  | [] => []
  | ty :: rest => canonical ty :: canonicalAll rest

end

theorem canonicalAll_snoc (tys : List Ty) (last : Ty) :
    canonicalAll (tys ++ [last]) = canonicalAll tys ++ [last.canonical] := by
  induction tys with
  | nil => rfl
  | cons ty rest ih => rw [List.cons_append, canonicalAll, canonicalAll, ih, List.cons_append]

mutual

theorem text_canonical : (ty : Ty) → ty.canonical.text = ty.text
  | .void | .bool | .double | .ptr => rfl
  | .int bits => by
    rw [canonical]
    split
    · next one => subst one; rfl
    · rfl
  | .array element _ => by rw [canonical, text, text, text_canonical element]
  | .struct (some _) _ => rfl
  | .struct none fields => by rw [canonical, text, text, texts_canonicalAll fields]
  | .function params ret => by
    rw [canonical, text, text, texts_canonicalAll params, text_canonical ret]

theorem texts_canonicalAll : (tys : List Ty) → texts (canonicalAll tys) = texts tys
  | [] => rfl
  | ty :: rest => by
    rw [canonicalAll, texts, texts, text_canonical ty, texts_canonicalAll rest]

end

/-! ## Types without named structs -/

theorem namedStructs_struct {name : Option String} {fields : List Ty}
    (plain : namedStructs (.struct name fields) = []) : name = none ∧ namedStructsAll fields = [] := by
  rw [namedStructs, List.append_eq_nil_iff] at plain
  cases name with
  | none => exact ⟨rfl, plain.1⟩
  | some name => exact absurd plain.2 (List.cons_ne_nil _ _)

theorem namedStructs_function {params : List Ty} {ret : Ty}
    (plain : namedStructs (.function params ret) = []) :
    namedStructsAll params = [] ∧ ret.namedStructs = [] := by
  rwa [namedStructs, List.append_eq_nil_iff] at plain

theorem namedStructsAll_eq_nil_iff (tys : List Ty) :
    namedStructsAll tys = [] ↔ ∀ ty ∈ tys, ty.namedStructs = [] := by
  induction tys with
  | nil => simp [namedStructsAll]
  | cons ty rest ih => rw [namedStructsAll, List.append_eq_nil_iff, ih, List.forall_mem_cons]

end Ty

/-! ## Numbers from the right -/

/-- The digits of a number, the last one first. -/
def backDigits (n : Nat) : List Char := (toString n).toList.reverse

theorem isDigit_of_mem_backDigits {n : Nat} {c : Char} (member : c ∈ backDigits n) : c.isDigit :=
  (isNumeral_number n).2 c (List.mem_reverse.1 member)

theorem backDigits_ne_nil (n : Nat) : backDigits n ≠ [] := by
  intro empty
  have := String.toList_eq_nil_iff.1 (List.reverse_eq_nil_iff.1 empty)
  exact (isNumeral_number n).1 this

/-- A number is read up to the first sign that is no digit. -/
theorem backDigits_append {m n : Nat} {c : Char} {left left' : List Char} (sign : c.isDigit = false)
    (same : backDigits m ++ c :: left = backDigits n ++ c :: left') : m = n ∧ left = left' := by
  have cut (k : Nat) (rest : List Char) :
      (backDigits k ++ c :: rest).takeWhile Char.isDigit = backDigits k := by
    rw [List.takeWhile_append_of_pos fun c member => isDigit_of_mem_backDigits member,
      List.takeWhile_cons_of_neg (by simp [sign]), List.append_nil]
  have digits : backDigits m = backDigits n := by
    rw [← cut m left, same, cut]
  have number : toString m = toString n := String.toList_inj.1 (List.reverse_inj.1 digits)
  rw [digits] at same
  exact ⟨toString_injective number, (List.cons_inj_right c).1 (List.append_cancel_left same)⟩

namespace Ty

/-! ## Texts from the right -/

/-- The text of a type, the last sign first. -/
def backwards (ty : Ty) : List Char := ty.text.toList.reverse

/-- The text of several types, the last sign first. -/
def backwardsAll (tys : List Ty) : List Char := (", ".intercalate (texts tys)).toList.reverse

theorem backwards_int (bits : Nat) : backwards (.int bits) = backDigits bits ++ ['i'] := by
  have written : text (.int bits) = "i" ++ toString bits := rfl
  simp [backwards, backDigits, written]

theorem backwards_array (element : Ty) (len : Nat) :
    backwards (.array element len) =
      ']' :: (backwards element ++ [' ', 'x', ' '] ++ backDigits len ++ ['[']) := by
  simp [backwards, backDigits, text]

theorem backwards_empty : backwards (.struct none []) = ['\x7d', '\x7b'] := rfl

theorem backwards_struct {fields : List Ty} (some_ : fields ≠ []) :
    backwards (.struct none fields) =
      '\x7d' :: ' ' :: (backwardsAll fields ++ [' ', '\x7b']) := by
  obtain ⟨ty, rest, rfl⟩ := List.exists_cons_of_ne_nil some_
  simp [backwards, backwardsAll, text, texts, braced]

theorem backwards_function (params : List Ty) (ret : Ty) :
    backwards (.function params ret) =
      ')' :: (backwardsAll params ++ ['(', ' '] ++ backwards ret) := by
  simp [backwards, backwardsAll, text]

theorem backwardsAll_singleton (ty : Ty) : backwardsAll [ty] = backwards ty := by
  simp [backwards, backwardsAll, texts]

theorem backwardsAll_snoc {tys : List Ty} (some_ : tys ≠ []) (ty : Ty) :
    backwardsAll (tys ++ [ty]) = backwards ty ++ ' ' :: ',' :: backwardsAll tys := by
  simp only [backwards, backwardsAll, texts_eq_map, List.map_append, List.map_cons, List.map_nil]
  rw [String.intercalate_append_of_ne_nil (by simpa using some_) (by simp)]
  simp

/-- The last sign of a type, unless it is a digit. -/
def lastSign : Ty → Option Char
  | .void => some 'd'
  | .bool | .int _ => none
  | .double => some 'e'
  | .ptr => some 'r'
  | .array .. => some ']'
  | .struct .. => some '\x7d'
  | .function .. => some ')'

/-- What a type without named structs ends with. -/
theorem backwards_eq_cons (ty : Ty) (plain : ty.namedStructs = []) :
    ∃ c left, ty.backwards = c :: left ∧
      ty.lastSign = if c.isDigit then none else some c := by
  cases ty with
  | void => exact ⟨'d', _, rfl, rfl⟩
  | bool => exact ⟨'1', _, rfl, rfl⟩
  | double => exact ⟨'e', _, rfl, rfl⟩
  | ptr => exact ⟨'r', _, rfl, rfl⟩
  | int bits =>
    obtain ⟨digit, rest, digits⟩ := List.exists_cons_of_ne_nil (backDigits_ne_nil bits)
    have isDigit : digit.isDigit :=
      isDigit_of_mem_backDigits (digits ▸ List.mem_cons_self : digit ∈ backDigits bits)
    exact ⟨digit, rest ++ ['i'], by rw [backwards_int, digits, List.cons_append], by
      rw [lastSign, if_pos isDigit]⟩
  | array element len => exact ⟨']', _, backwards_array element len, rfl⟩
  | struct name fields =>
    obtain ⟨rfl, -⟩ := namedStructs_struct plain
    cases fields with
    | nil => exact ⟨'\x7d', _, rfl, rfl⟩
    | cons ty rest => exact ⟨'\x7d', _, backwards_struct (List.cons_ne_nil _ _), rfl⟩
  | function params ret => exact ⟨')', _, backwards_function params ret, rfl⟩

theorem lastSign_eq_of_backwards {a b : Ty} {left left' : List Char} (plain : a.namedStructs = [])
    (plain' : b.namedStructs = []) (same : a.backwards ++ left = b.backwards ++ left') :
    a.lastSign = b.lastSign := by
  obtain ⟨c, rest, written, sign⟩ := backwards_eq_cons a plain
  obtain ⟨c', rest', written', sign'⟩ := backwards_eq_cons b plain'
  rw [written, written', List.cons_append, List.cons_append, List.cons.injEq] at same
  rw [sign, sign', same.1]

/-- Types do not end with the sign that opens a list of parameters. -/
theorem backwardsAll_ne_open {tys : List Ty} (some_ : tys ≠ [])
    (plain : ∀ ty ∈ tys, ty.namedStructs = []) (left left' : List Char) :
    backwardsAll tys ++ left ≠ '(' :: left' := by
  obtain none_ | ⟨tys, last, rfl⟩ := List.eq_nil_or_concat tys
  · exact absurd none_ some_
  rw [List.concat_eq_append] at plain ⊢
  obtain ⟨c, rest, written, sign⟩ := backwards_eq_cons last (plain last (by simp))
  have ends : ∃ rest, backwardsAll (tys ++ [last]) = c :: rest := by
    by_cases alone : tys = []
    · exact ⟨rest, by rw [alone, List.nil_append, backwardsAll_singleton, written]⟩
    · exact ⟨_, by rw [backwardsAll_snoc alone, written, List.cons_append]⟩
  obtain ⟨rest, ends⟩ := ends
  rw [ends]
  rintro ⟨⟩
  cases last <;> cases sign

/-! ## Reading a type back -/

/-- The text of the type is read back from the right, whatever stands to its left: no other
type without named structs could have been meant, up to the one-bit integer. -/
def ReadsBack (a : Ty) : Prop :=
  ∀ (b : Ty) (left left' : List Char), b.namedStructs = [] →
    a.backwards ++ left = b.backwards ++ left' → a.canonical = b.canonical ∧ left = left'

/-- The two signs that stand between two types are not the ones that open the list, so a list
does not end where another one goes on. -/
theorem opens_ne_separator {first second : Char} (opens : (first, second) ≠ (' ', ','))
    (left left' : List Char) : first :: second :: left ≠ ' ' :: ',' :: left' := by
  rintro ⟨⟩
  exact opens rfl

/-- A list of types is read back up to the two signs that open it. -/
theorem backwardsAll_readsBack {first second : Char} (opens : (first, second) ≠ (' ', ','))
    (as : List Ty) :
    as ≠ [] → (∀ a ∈ as, ReadsBack a) → ∀ (bs : List Ty) (left left' : List Char),
      bs ≠ [] → (∀ b ∈ bs, b.namedStructs = []) →
      backwardsAll as ++ first :: second :: left = backwardsAll bs ++ first :: second :: left' →
      canonicalAll as = canonicalAll bs ∧ left = left' := by
  induction as using List.reverseRecOn with
  | nil => exact fun none_ => absurd rfl none_
  | append_singleton as a ih =>
    intro _ members bs left left' some_ plain same
    obtain none_ | ⟨bs, b, rfl⟩ := List.eq_nil_or_concat bs
    · exact absurd none_ some_
    rw [List.concat_eq_append] at plain same ⊢
    rw [canonicalAll_snoc, canonicalAll_snoc]
    have last := members a (by simp) b
    have plain' := plain b (by simp)
    by_cases alone : as = [] <;> by_cases alone' : bs = []
    · subst alone alone'
      rw [List.nil_append, List.nil_append, backwardsAll_singleton, backwardsAll_singleton] at same
      obtain ⟨same, rest⟩ := last _ _ plain' same
      obtain ⟨-, rest⟩ := List.cons.inj rest
      exact ⟨by rw [same], (List.cons.inj rest).2⟩
    · subst alone
      rw [List.nil_append, backwardsAll_singleton, backwardsAll_snoc alone', List.append_assoc] at same
      obtain ⟨-, rest⟩ := last _ _ plain' same
      exact absurd rest (opens_ne_separator opens _ _)
    · subst alone'
      rw [List.nil_append, backwardsAll_singleton, backwardsAll_snoc alone, List.append_assoc] at same
      obtain ⟨-, rest⟩ := last _ _ plain' same
      exact absurd rest.symm (opens_ne_separator opens _ _)
    · rw [backwardsAll_snoc alone, backwardsAll_snoc alone', List.append_assoc,
        List.append_assoc] at same
      obtain ⟨same, rest⟩ := last _ _ plain' same
      obtain ⟨-, rest⟩ := List.cons.inj rest
      obtain ⟨-, rest⟩ := List.cons.inj rest
      obtain ⟨before, rest⟩ := ih alone (fun a member => members a (by simp [member])) bs left left'
        alone' (fun b member => plain b (by simp [member])) rest
      exact ⟨by rw [before, same], rest⟩

/-! ## One kind of type at a time -/

/-- A type that no other ends like. -/
theorem readsBack_of_lastSign {a : Ty} (plain : a.namedStructs = [])
    (alone : ∀ b : Ty, a.lastSign = b.lastSign → a = b) : ReadsBack a := by
  intro b left left' plain' same
  obtain rfl := alone b (lastSign_eq_of_backwards plain plain' same)
  exact ⟨rfl, List.append_cancel_left same⟩

/-- The one-bit integer is the only one that is written as the boolean. -/
theorem readsBack_bool : ReadsBack .bool := by
  intro b left left' plain same
  have sign := lastSign_eq_of_backwards (a := .bool) rfl plain same
  have written : backwards .bool = backDigits 1 ++ ['i'] := rfl
  cases b with
  | bool => exact ⟨rfl, List.append_cancel_left same⟩
  | int bits =>
    rw [written, backwards_int, List.append_assoc, List.append_assoc] at same
    obtain ⟨rfl, rest⟩ := backDigits_append rfl same
    exact ⟨rfl, rest⟩
  | _ => cases sign

theorem readsBack_int (bits : Nat) : ReadsBack (.int bits) := by
  intro b left left' plain same
  have sign := lastSign_eq_of_backwards (a := .int bits) rfl plain same
  cases b with
  | bool =>
    obtain ⟨canonical, rest⟩ := readsBack_bool (.int bits) left' left rfl same.symm
    exact ⟨canonical.symm, rest.symm⟩
  | int bits' =>
    rw [backwards_int, backwards_int, List.append_assoc, List.append_assoc] at same
    obtain ⟨rfl, rest⟩ := backDigits_append rfl same
    exact ⟨rfl, rest⟩
  | _ => cases sign

theorem readsBack_array {element : Ty} (len : Nat) (plainElement : element.namedStructs = [])
    (ih : ReadsBack element) : ReadsBack (.array element len) := by
  intro b left left' plain same
  have sign := lastSign_eq_of_backwards (a := .array element len) plainElement plain same
  cases b with
  | array element' len' =>
    simp only [backwards_array, List.cons_append, List.append_assoc, List.cons.injEq,
      true_and] at same
    obtain ⟨elements, same⟩ := ih element' _ _ plain same
    simp only [List.nil_append, List.cons.injEq, true_and] at same
    obtain ⟨rfl, rest⟩ := backDigits_append rfl same
    exact ⟨by rw [canonical, canonical, elements], rest⟩
  | _ => cases sign

theorem readsBack_struct {fields : List Ty} (plainFields : namedStructsAll fields = [])
    (ih : ∀ field ∈ fields, ReadsBack field) : ReadsBack (.struct none fields) := by
  intro b left left' plain same
  have sign := lastSign_eq_of_backwards (a := .struct none fields)
    (by rw [namedStructs, plainFields]; rfl) plain same
  cases b with
  | struct name fields' =>
    obtain ⟨rfl, plain'⟩ := namedStructs_struct plain
    rw [namedStructsAll_eq_nil_iff] at plain'
    by_cases empty : fields = [] <;> by_cases empty' : fields' = []
    · subst empty empty'
      exact ⟨rfl, List.append_cancel_left same⟩
    · subst empty
      rw [backwards_empty, backwards_struct empty'] at same
      simp at same
    · subst empty'
      rw [backwards_empty, backwards_struct empty] at same
      simp at same
    · simp only [backwards_struct empty, backwards_struct empty', List.cons_append,
        List.append_assoc, List.cons.injEq, true_and] at same
      obtain ⟨fields_, rest⟩ :=
        backwardsAll_readsBack (by decide) fields empty ih fields' _ _ empty' plain' same
      exact ⟨by rw [canonical, canonical, fields_], rest⟩
  | _ => cases sign

theorem readsBack_function {params : List Ty} {ret : Ty} (plainParams : namedStructsAll params = [])
    (plainRet : ret.namedStructs = []) (ihParams : ∀ param ∈ params, ReadsBack param)
    (ihRet : ReadsBack ret) : ReadsBack (.function params ret) := by
  intro b left left' plain same
  have sign := lastSign_eq_of_backwards (a := .function params ret)
    (by rw [namedStructs, plainParams, plainRet]; rfl) plain same
  cases b with
  | function params' ret' =>
    obtain ⟨plain', plainRet'⟩ := namedStructs_function plain
    rw [namedStructsAll_eq_nil_iff] at plain' plainParams
    simp only [backwards_function, List.cons_append, List.append_assoc, List.cons.injEq,
      true_and] at same
    have lists : canonicalAll params = canonicalAll params' ∧
        ret.backwards ++ left = ret'.backwards ++ left' := by
      by_cases empty : params = [] <;> by_cases empty' : params' = []
      · subst empty empty'
        exact ⟨rfl, by simpa [backwardsAll, texts] using same⟩
      · subst empty
        exact absurd same.symm (backwardsAll_ne_open empty' plain' _ _)
      · subst empty'
        exact absurd same (backwardsAll_ne_open empty plainParams _ _)
      · exact backwardsAll_readsBack (by decide) params empty ihParams params' _ _ empty' plain' same
    obtain ⟨lists, same⟩ := lists
    obtain ⟨rets, rest⟩ := ihRet ret' _ _ plainRet' same
    exact ⟨by rw [canonical, canonical, lists, rets], rest⟩
  | _ => cases sign

/-! ## Every type -/

mutual

/-- A type without named structs is read back from the right. -/
theorem readsBack : (ty : Ty) → ty.namedStructs = [] → ReadsBack ty
  | .void, _ => by
    refine readsBack_of_lastSign rfl fun b sign => ?_
    cases b with
    | void => rfl
    | _ => cases sign
  | .bool, _ => readsBack_bool
  | .int bits, _ => readsBack_int bits
  | .double, _ => by
    refine readsBack_of_lastSign rfl fun b sign => ?_
    cases b with
    | double => rfl
    | _ => cases sign
  | .ptr, _ => by
    refine readsBack_of_lastSign rfl fun b sign => ?_
    cases b with
    | ptr => rfl
    | _ => cases sign
  | .array element len, plain => readsBack_array len plain (readsBack element plain)
  | .struct name fields, plain => by
    obtain ⟨rfl, plainFields⟩ := namedStructs_struct plain
    exact readsBack_struct plainFields (readsBack_all fields plainFields)
  | .function params ret, plain => by
    obtain ⟨plainParams, plainRet⟩ := namedStructs_function plain
    exact readsBack_function plainParams plainRet (readsBack_all params plainParams)
      (readsBack ret plainRet)

theorem readsBack_all : (tys : List Ty) → namedStructsAll tys = [] → ∀ ty ∈ tys, ReadsBack ty
  | [], _ => by
    intro ty member
    cases member
  | first :: rest, plain => by
    rw [namedStructsAll, List.append_eq_nil_iff] at plain
    exact List.forall_mem_cons.2 ⟨readsBack first plain.1, readsBack_all rest plain.2⟩

end

/-- Types without named structs are written alike iff they are equal up to the one-bit
integer, which is written as the boolean. -/
theorem text_eq_iff (a b : Ty) (plain : a.namedStructs = []) (plain' : b.namedStructs = []) :
    a.text = b.text ↔ a.canonical = b.canonical := by
  constructor
  · intro same
    have back : a.backwards ++ [] = b.backwards ++ [] := by rw [backwards, same, backwards]
    exact (readsBack a plain b [] [] plain' back).1
  · intro same
    rw [← text_canonical a, same, text_canonical]

/-- `{i1, [2 x {}]} (i1, ptr) ()`, with the first `i1` meant in two ways. -/
theorem text_eq_iff_sample :
    let type (flag : Ty) : Ty :=
      .function [] (.function [.bool, .ptr] (.struct none [flag, .array (.struct none []) 2]))
    (type .bool).namedStructs = [] ∧ (type (.int 1)).namedStructs = [] ∧
      (type .bool).text = (type (.int 1)).text ∧ (type .bool).text ≠ (type (.int 8)).text := by
  intro type
  have plain (flag : Ty) (alone : flag.namedStructs = []) : (type flag).namedStructs = [] := by
    simp [type, namedStructs, namedStructsAll, alone]
  refine ⟨plain _ rfl, plain _ rfl, (text_eq_iff _ _ (plain _ rfl) (plain _ rfl)).2 rfl, ?_⟩
  rw [Ne, text_eq_iff _ _ (plain _ rfl) (plain _ rfl)]
  decide

end Ty

end SsaLowering.Ir
