/-
# SsaLowering.Symbol -- interned identifiers

A `Symbol` is the key of an identifier in a `SymbolTable`, the list of distinct
texts in the order of first sight.  The table never forgets a text and never
moves one, so a symbol keeps its meaning while the table grows: interning gives
a key that resolves to the text (`resolve?_intern_self`) and leaves every
resolved key as it was (`resolve?_intern_of_some`).  A key that the table never
issued resolves to nothing.
-/
namespace SsaLowering

set_option autoImplicit false

/-- The key of an interned identifier.  Two symbols are one name exactly when
their keys are equal. -/
structure Symbol where
  key : Nat
deriving DecidableEq, Inhabited

/-- The texts of all issued symbols: the symbol with key `k` stands for entry `k`. -/
structure SymbolTable where
  texts : List String
  nodup : texts.Nodup := by simp

namespace SymbolTable

def empty : SymbolTable := ⟨[], by simp⟩

instance : Inhabited SymbolTable := ⟨empty⟩

/-- Number of distinct texts. -/
def size (table : SymbolTable) : Nat := table.texts.length

/-- The text behind a symbol, if this table issued it. -/
def resolve? (table : SymbolTable) (symbol : Symbol) : Option String :=
  table.texts[symbol.key]?

/-- The symbol of `text`, issued now if the text is new. -/
def intern (table : SymbolTable) (text : String) : Symbol × SymbolTable :=
  if present : text ∈ table.texts then (⟨table.texts.idxOf text⟩, table)
  else
    (⟨table.size⟩,
      ⟨table.texts ++ [text], by
        rw [List.nodup_append]
        exact ⟨table.nodup, by simp, by
          intro a ha b hb same
          rw [List.mem_singleton] at hb
          exact present (hb ▸ same ▸ ha)⟩⟩)

/-- The text shown to a reader; a foreign key has none of its own. -/
def display (table : SymbolTable) (symbol : Symbol) : String :=
  (table.resolve? symbol).getD "<unknown>"

/-- A short account of the table. -/
def summary (table : SymbolTable) : String := s!"Interner \x7b len: {table.size} \x7d"

/-! ## What interning does to the texts -/

theorem resolve?_intern_self (table : SymbolTable) (text : String) :
    (table.intern text).2.resolve? (table.intern text).1 = some text := by
  unfold intern resolve?
  split
  next present => simp [List.getElem?_eq_getElem (List.idxOf_lt_length_of_mem present)]
  next => simp [size]

theorem resolve?_intern_of_some {table : SymbolTable} {symbol : Symbol} {known : String}
    (text : String) (h : table.resolve? symbol = some known) :
    (table.intern text).2.resolve? symbol = some known := by
  unfold intern resolve? at *
  split
  next => exact h
  next =>
    obtain ⟨bound, _⟩ := List.getElem?_eq_some_iff.1 h
    simpa [List.getElem?_append_left bound] using h

end SymbolTable

end SsaLowering
