/-
# SsaLowering.Proofs.Text -- texts that can be read back

A text is cut in one way only at the first place of a character (`cut_inj`), and so is
a row of parts with separators in between, where no part contains the first character
of the separator (`intercalate_inj`).

The characters of a byte literal can be read back: no quote stands between the quotes,
a backslash comes with the two digits of its byte, and all else is a byte in ASCII.
`ByteLiteral.decode` reads them, and gives what was written (`decode_encode`), so the
line of a piece of constant data tells its bytes (`Module.globalLine_decodes`).
-/
import Mathlib
import SsaLowering.Ir.Listing
import SsaLowering.Text.Hexadecimal

namespace SsaLowering

set_option autoImplicit false

/-! ## Cuts -/

section Parts

variable {separator rest rest' part part' : List Char} {first : Char}

/-- A text is cut at the first place of a character in one way only. -/
theorem cut_inj (clear : first ∉ part) (clear' : first ∉ part')
    (same : part ++ first :: rest = part' ++ first :: rest') : part = part' ∧ rest = rest' := by
  induction part generalizing part' with
  | nil =>
    cases part' with
    | nil => exact ⟨rfl, (List.cons.inj same).2⟩
    | cons c part' =>
      obtain rfl := (List.cons.inj same).1
      exact absurd List.mem_cons_self clear'
  | cons c part ih =>
    cases part' with
    | nil =>
      obtain rfl := (List.cons.inj same).1
      exact absurd List.mem_cons_self clear
    | cons c' part' =>
      obtain ⟨rfl, onward⟩ := List.cons.inj same
      obtain ⟨rfl, rest⟩ := ih (List.not_mem_of_not_mem_cons clear)
        (List.not_mem_of_not_mem_cons clear') onward
      exact ⟨rfl, rest⟩

/-- And at the last place of a character. -/
theorem cut_last_inj {last : Char} (clear : last ∉ rest) (clear' : last ∉ rest')
    (same : part ++ last :: rest = part' ++ last :: rest') : rest = rest' := by
  have flipped : rest.reverse ++ last :: part.reverse = rest'.reverse ++ last :: part'.reverse := by
    simpa using congrArg List.reverse same
  refine List.reverse_injective (cut_inj ?_ ?_ flipped).1
  · rwa [List.mem_reverse]
  · rwa [List.mem_reverse]

/-- A part alone is no row of more parts: the separator would stand in it. -/
theorem ne_cut (clear : first ∉ part) : part ≠ part' ++ first :: rest := by
  rintro rfl
  exact clear (List.mem_append_right _ List.mem_cons_self)

/-- A row of parts is known by its text. -/
theorem intercalate_inj {parts parts' : List (List Char)} (some_ : parts ≠ []) (some' : parts' ≠ [])
    (clear : ∀ part ∈ parts, first ∉ part) (clear' : ∀ part ∈ parts', first ∉ part)
    (same : (first :: separator).intercalate parts = (first :: separator).intercalate parts') :
    parts = parts' := by
  induction parts generalizing parts' with
  | nil => exact absurd rfl some_
  | cons part more ih =>
    obtain ⟨here, later⟩ := List.forall_mem_cons.1 clear
    obtain ⟨part', more', rfl⟩ := List.exists_cons_of_ne_nil some'
    obtain ⟨here', later'⟩ := List.forall_mem_cons.1 clear'
    cases more with
    | nil =>
      cases more' with
      | nil => simpa using same
      | cons next' more' =>
        rw [List.intercalate_singleton, List.intercalate_cons_cons] at same
        exact absurd (by simpa using same) (ne_cut here)
    | cons next more =>
      cases more' with
      | nil =>
        rw [List.intercalate_singleton, List.intercalate_cons_cons] at same
        exact absurd (by simpa using same.symm) (ne_cut here')
      | cons next' more' =>
        rw [List.intercalate_cons_cons, List.intercalate_cons_cons, List.append_assoc,
          List.append_assoc, List.cons_append, List.cons_append] at same
        obtain ⟨rfl, onward⟩ := cut_inj here here' same
        rw [ih (List.cons_ne_nil _ _) (List.cons_ne_nil _ _) later later'
          (List.append_cancel_left onward)]

end Parts

namespace Text.ByteLiteral

/-! ## Byte literals -/

def isUpperHex (c : Char) : Bool := ('0' ≤ c && c ≤ '9') || ('A' ≤ c && c ≤ 'F')

/-- The bytes that characters between quotes stand for, if they stand for any. -/
def decode : List Char → Option (List UInt8)
  | [] => some []
  | '\\' :: high :: low :: rest => do
    let high ← Hexadecimal.digit? high
    let low ← Hexadecimal.digit? low
    return UInt8.ofNat (16 * high + low) :: (← decode rest)
  | '\\' :: _ => none
  | c :: rest => if c.toNat < 128 then (decode rest).map (UInt8.ofNat c.toNat :: ·) else none

variable {byte : UInt8}

theorem digit?_hexDigit : ∀ n < 16, Hexadecimal.digit? (hexDigit n) = some n := by decide

theorem isUpperHex_hexDigit : ∀ n < 16, isUpperHex (hexDigit n) := by decide

theorem isPlain_iff : isPlain byte ↔
    0x20 ≤ byte.toNat ∧ byte.toNat ≤ 0x7E ∧ byte.toNat ≠ 0x22 ∧ byte.toNat ≠ 0x5C := by
  simp [isPlain, UInt8.le_iff_toNat_le, ← UInt8.toNat_inj, and_assoc]

/-- A byte that stands for itself is the code of its character. -/
theorem toNat_plain (plain : isPlain byte) : (Char.ofNat byte.toNat).toNat = byte.toNat := by
  obtain ⟨-, high, -⟩ := isPlain_iff.1 plain
  rw [Char.toNat_ofNat, if_pos (Or.inl (by omega))]

/-- It is neither a quote nor a backslash. -/
theorem plain_ne (plain : isPlain byte) :
    Char.ofNat byte.toNat ≠ '"' ∧ Char.ofNat byte.toNat ≠ '\\' := by
  obtain ⟨-, -, quote, backslash⟩ := isPlain_iff.1 plain
  have code := toNat_plain plain
  constructor
  · intro same
    exact quote (by rw [← code, same]; rfl)
  · intro same
    exact backslash (by rw [← code, same]; rfl)

theorem decode_plain {c : Char} (apart : c ≠ '\\') (ascii : c.toNat < 128) (rest : List Char) :
    decode (c :: rest) = (decode rest).map (UInt8.ofNat c.toNat :: ·) := by
  rw [decode, if_pos ascii]
  all_goals simp [apart]

/-- What is written for a byte is read as this byte, whatever follows. -/
theorem decode_encodeByte (byte : UInt8) (rest : List Char) :
    decode (encodeByte byte ++ rest) = (decode rest).map (byte :: ·) := by
  unfold encodeByte
  split
  next plain =>
    have code := toNat_plain plain
    obtain ⟨-, high, -⟩ := isPlain_iff.1 plain
    rw [List.singleton_append, decode_plain (plain_ne plain).2 (by omega), code,
      UInt8.ofNat_toNat]
  next =>
    have bound : byte.toNat < 256 := byte.toNat_lt_size
    have whole : UInt8.ofNat (16 * (byte.toNat / 16) + byte.toNat % 16) = byte := by
      rw [Nat.div_add_mod, UInt8.ofNat_toNat]
    have high := digit?_hexDigit (byte.toNat / 16) (by omega)
    have low := digit?_hexDigit (byte.toNat % 16) (by omega)
    simp only [List.cons_append, List.nil_append, decode, high, low, Option.bind_eq_bind,
      Option.bind_some, whole]
    cases decode rest <;> rfl

theorem decode_encode (bytes : List UInt8) : decode (encode bytes) = some bytes := by
  induction bytes with
  | nil => rfl
  | cons byte bytes ih =>
    have onward := decode_encodeByte byte (encode bytes)
    rw [ih] at onward
    exact onward

theorem isUpperHex_ne {c : Char} (digit : isUpperHex c) : c ≠ '"' ∧ c ≠ '\\' := by
  constructor
  · rintro rfl
    cases digit
  · rintro rfl
    cases digit

/-- The characters of a byte: one that stands for itself, or a backslash with two digits. -/
theorem encodeByte_cases (byte : UInt8) :
    (∃ c, c ≠ '"' ∧ c ≠ '\\' ∧ encodeByte byte = [c]) ∨
      ∃ high low, isUpperHex high ∧ isUpperHex low ∧ encodeByte byte = ['\\', high, low] := by
  unfold encodeByte
  split
  next plain => exact Or.inl ⟨_, (plain_ne plain).1, (plain_ne plain).2, rfl⟩
  next =>
    have bound : byte.toNat < 256 := byte.toNat_lt_size
    exact Or.inr ⟨_, _, isUpperHex_hexDigit _ (by omega), isUpperHex_hexDigit _ (by omega), rfl⟩

/-- No quote ends a literal early. -/
theorem quote_not_mem_encode (bytes : List UInt8) : '"' ∉ encode bytes := by
  intro member
  obtain ⟨byte, -, here⟩ := List.mem_flatMap.1 member
  rcases encodeByte_cases byte with ⟨c, apart, -, written⟩ | ⟨high, low, digit, digit', written⟩
  · rw [written, List.mem_singleton] at here
    exact apart here.symm
  · rw [written, List.mem_cons, List.mem_pair] at here
    rcases here with backslash | first | second
    · cases backslash
    · exact (isUpperHex_ne digit).1 first.symm
    · exact (isUpperHex_ne digit').1 second.symm

/-- Every backslash is followed by the two digits that belong to it. -/
def Escaped (text : List Char) : Prop :=
  ∀ before after, text = before ++ '\\' :: after →
    ∃ high low rest, after = high :: low :: rest ∧ isUpperHex high ∧ isUpperHex low

theorem Escaped.cons {c : Char} {text : List Char} (apart : c ≠ '\\') (escaped : Escaped text) :
    Escaped (c :: text) := by
  intro before after same
  cases before with
  | nil => exact absurd (List.cons.inj same).1 apart
  | cons first before => exact escaped before after (List.cons.inj same).2

theorem Escaped.escape {high low : Char} {text : List Char} (first : isUpperHex high)
    (second : isUpperHex low) (escaped : Escaped text) : Escaped ('\\' :: high :: low :: text) := by
  intro before after same
  cases before with
  | nil => exact ⟨high, low, text, (List.cons.inj same).2.symm, first, second⟩
  | cons backslash before =>
    exact (escaped.cons (isUpperHex_ne second).2).cons (isUpperHex_ne first).2 before after
      (List.cons.inj same).2

theorem escaped_encode (bytes : List UInt8) : Escaped (encode bytes) := by
  induction bytes with
  | nil =>
    intro before after same
    cases (List.append_eq_nil_iff.1 same.symm).2
  | cons byte bytes ih =>
    rw [encode, List.flatMap_cons]
    rcases encodeByte_cases byte with ⟨c, -, apart, written⟩ | ⟨high, low, first, second, written⟩
    · rw [written]
      exact ih.cons apart
    · rw [written]
      exact ih.escape first second

end Text.ByteLiteral

/-! ## Lines of constant data -/

namespace Ir.Module

open Text.ByteLiteral

/-- The line of a piece of constant data up to its literal. -/
def globalHead (g : Global) : String :=
  "@" ++ g.name ++ " = private " ++ (if g.readOnly then "constant" else "global") ++
    " [" ++ toString g.bytes.length ++ " x i8] c"

theorem globalLine_toList (g : Global) :
    (globalLine g).toList =
      (globalHead g).toList ++ '"' :: (encode g.bytes ++ ['"']) := by
  have type : g.ty.text = "[" ++ toString g.bytes.length ++ " x i8]" := by
    simp only [Global.ty, Ty.byte, Ty.text, String.append_assoc]
    rfl
  rw [globalLine, type, globalHead]
  simp [String.append_assoc]

/-- What stands between the last two quotes is told by the line. -/
theorem encode_of_globalLine {g g' : Global} (same : globalLine g = globalLine g') :
    encode g.bytes = encode g'.bytes := by
  have texts := congrArg String.toList same
  rw [globalLine_toList, globalLine_toList, ← List.cons_append, ← List.cons_append,
    ← List.append_assoc, ← List.append_assoc] at texts
  exact cut_last_inj (quote_not_mem_encode _) (quote_not_mem_encode _)
    (List.append_cancel_right texts)

/-- The line of a piece of constant data has the bytes between its last two quotes: no other quote
stands there, a backslash is followed by two upper-case hexadecimal digits, and read from left
to right the characters give the bytes, as many as the type says.  So lines of different bytes
are different. -/
theorem globalLine_decodes (g : Global) :
    ∃ literal : List Char,
      (globalLine g).toList = (globalHead g).toList ++ '"' :: (literal ++ ['"']) ∧
      '"' ∉ literal ∧ Escaped literal ∧ decode literal = some g.bytes ∧
      ∀ g', globalLine g' = globalLine g → g'.bytes = g.bytes := by
  refine ⟨encode g.bytes, globalLine_toList g, quote_not_mem_encode _, escaped_encode _,
    decode_encode _, fun g' same => ?_⟩
  have literals := congrArg decode (encode_of_globalLine same)
  rw [decode_encode, decode_encode] at literals
  exact Option.some.inj literals

end Ir.Module

end SsaLowering
