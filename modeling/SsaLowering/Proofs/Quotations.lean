/-
# SsaLowering.Proofs.Quotations -- the string literals of a body, and where they end up

`Stmt.allLiterals` lists the string literals that statements evaluate, in the order of
evaluation.  `Stmt.allUses` says where their values go: for each instruction with strings among
its operands it has a row, which tells for each operand which literal it is.  A literal is known
by its number, so two literals of one text are told apart.

A string reaches an instruction directly, through the value of an assignment, or through the
constants that hold it, which a `Ledger` keeps track of.  What is read from a variable is not a
literal any more.
-/
import Mathlib.Logic.Function.Basic
import SsaLowering.Proofs.Ir.Aggregates
import SsaLowering.Proofs.Typing

namespace SsaLowering

set_option autoImplicit false

/-- A string literal of a body: the number of those before it, and its text. -/
structure Literal where
  number : Nat
  text : String
deriving DecidableEq, Repr

/-- What has been evaluated of a body: its literals so far, and which visible names stand for
one of them. -/
structure Ledger where
  texts : List String
  names : Symbol → Option Literal

/-- More literals have been evaluated. -/
def Ledger.past (ledger : Ledger) (texts : List String) : Ledger :=
  { ledger with texts := ledger.texts ++ texts }

@[simp] theorem Ledger.past_nil (ledger : Ledger) : ledger.past [] = ledger := by
  rw [past, List.append_nil]

/-! ## Expressions -/

mutual

/-- The string literals of an expression, in the order of evaluation. -/
def Expr.literals : Expr → List String
  | .string text _ => [text]
  | .member object _ _ => object.literals
  | .call callee args _ => callee.literals ++ Expr.allLiterals args
  | .binary _ lhs rhs _ => lhs.literals ++ rhs.literals
  | .unary _ operand _ => operand.literals
  | .array elements _ => Expr.allLiterals elements
  | .index object position _ => object.literals ++ position.literals
  | .identifier .. | .bool .. | .number .. | .null .. => []

def Expr.allLiterals : List Expr → List String
  | [] => []
  | expr :: rest => expr.literals ++ Expr.allLiterals rest

end

/-- The literal that is the value of an expression. -/
def Expr.held (ledger : Ledger) : Expr → Option Literal
  | .string text _ => some ⟨ledger.texts.length, text⟩
  | .identifier name _ => ledger.names name
  | .binary .assign lhs rhs _ => rhs.held (ledger.past lhs.literals)
  | _ => none

def Expr.allHeld (ledger : Ledger) : List Expr → List (Option Literal)
  | [] => []
  | expr :: rest => expr.held ledger :: Expr.allHeld (ledger.past expr.literals) rest

mutual

/-- The rows of the instructions of an expression: of calls, of stores and of additions. -/
def Expr.uses (ledger : Ledger) : Expr → List (List (Option Literal))
  | .call callee args _ =>
    callee.uses ledger ++ Expr.allUses (ledger.past callee.literals) args ++
      occupied (Expr.allHeld (ledger.past callee.literals) args)
  | .binary .assign lhs rhs _ =>
    lhs.uses ledger ++ rhs.uses (ledger.past lhs.literals) ++
      occupied [rhs.held (ledger.past lhs.literals), none]
  | .binary .add lhs rhs _ =>
    lhs.uses ledger ++ rhs.uses (ledger.past lhs.literals) ++
      occupied [lhs.held ledger, rhs.held (ledger.past lhs.literals)]
  | _ => []

def Expr.allUses (ledger : Ledger) : List Expr → List (List (Option Literal))
  | [] => []
  | expr :: rest => expr.uses ledger ++ Expr.allUses (ledger.past expr.literals) rest

end

/-! ## Statements -/

def Declarator.literals (decl : Declarator) : List String := decl.init.elim [] Expr.literals

/-- The initial value of a variable is stored, and that of a constant is not. -/
def Declarator.uses (kind : BindingKind) (ledger : Ledger) (decl : Declarator) :
    List (List (Option Literal)) :=
  decl.init.elim [] fun expr =>
    expr.uses ledger ++ if kind.isMutable then occupied [expr.held ledger, none] else []

/-- The ledger behind a declarator: a constant stands for what its initial value is. -/
def Ledger.declare (kind : BindingKind) (ledger : Ledger) (decl : Declarator) : Ledger where
  texts := ledger.texts ++ decl.literals
  names := Function.update ledger.names decl.name
    (if kind.isMutable then none else decl.init.bind (·.held ledger))

def Declarator.allUses (kind : BindingKind) : Ledger → List Declarator →
    List (List (Option Literal))
  | _, [] => []
  | ledger, decl :: rest => decl.uses kind ledger ++ allUses kind (ledger.declare kind decl) rest

mutual

/-- The string literals of a statement; one that is skipped has none. -/
def Stmt.literals : Stmt → List String
  | .block stmts _ => Stmt.allLiterals stmts
  | .expression expr _ => expr.literals
  | .ifElse condition thenBranch elseBranch _ =>
    condition.literals ++ thenBranch.literals ++ Stmt.literalsOptional elseBranch
  | .ret value _ => value.elim [] Expr.literals
  | .vars _ declarators _ => declarators.flatMap Declarator.literals
  | .whileLoop .. | .breakLoop .. | .continueLoop .. | .empty .. => []

def Stmt.literalsOptional : Option Stmt → List String
  | none => []
  | some stmt => stmt.literals

/-- The string literals of statements, up to the first that always returns. -/
def Stmt.allLiterals : List Stmt → List String
  | [] => []
  | stmt :: rest => stmt.literals ++ if stmt.closes then [] else Stmt.allLiterals rest

end

namespace Ledger

mutual

/-- The ledger behind a statement.  A block keeps its names to itself, and a branch that is no
block does not. -/
def behind (ledger : Ledger) : Stmt → Ledger
  | .ifElse condition thenBranch elseBranch _ =>
    ((ledger.past condition.literals).behind thenBranch).behindOptional elseBranch
  | .vars kind declarators _ => declarators.foldl (declare kind) ledger
  | stmt => ledger.past stmt.literals

def behindOptional (ledger : Ledger) : Option Stmt → Ledger
  | none => ledger
  | some stmt => ledger.behind stmt

end

end Ledger

mutual

/-- The rows of the instructions of a statement and of the ends of its blocks. -/
def Stmt.uses (ledger : Ledger) : Stmt → List (List (Option Literal))
  | .block stmts _ => Stmt.allUses ledger stmts
  | .expression expr _ => expr.uses ledger
  | .ifElse condition thenBranch elseBranch _ =>
    condition.uses ledger ++ occupied [condition.held ledger] ++
      thenBranch.uses (ledger.past condition.literals) ++
      Stmt.usesOptional ((ledger.past condition.literals).behind thenBranch) elseBranch
  | .ret value _ => value.elim [] fun expr => expr.uses ledger ++ occupied [expr.held ledger]
  | .vars kind declarators _ => Declarator.allUses kind ledger declarators
  | .whileLoop .. | .breakLoop .. | .continueLoop .. | .empty .. => []

def Stmt.usesOptional (ledger : Ledger) : Option Stmt → List (List (Option Literal))
  | none => []
  | some stmt => stmt.uses ledger

def Stmt.allUses (ledger : Ledger) : List Stmt → List (List (Option Literal))
  | [] => []
  | stmt :: rest =>
    stmt.uses ledger ++ if stmt.closes then [] else Stmt.allUses (ledger.behind stmt) rest

end

/-- Where a body starts. -/
def Ledger.blank : Ledger := ⟨[], fun _ => none⟩

/-- The string literals of the body of a function. -/
def FunctionDecl.literals (decl : FunctionDecl) : List String :=
  decl.body.elim [] fun body => Stmt.allLiterals body.stmts

/-- Where they go. -/
def FunctionDecl.uses (decl : FunctionDecl) : List (List (Option Literal)) :=
  decl.body.elim [] fun body => Stmt.allUses .blank body.stmts

/-! ## Literals that are used are among those evaluated -/

/-- The literal is one of the given texts. -/
def Literal.Among (texts : List String) (lit : Literal) : Prop :=
  texts[lit.number]? = some lit.text

theorem Literal.Among.append {texts : List String} {lit : Literal} (among : lit.Among texts)
    (more : List String) : lit.Among (texts ++ more) := by
  have bound := (List.getElem?_eq_some_iff.1 among).1
  rw [Among, List.getElem?_append_left bound]
  exact among

/-- All literals in the rows are among the given texts. -/
def Quoted (texts : List String) (rows : List (List (Option Literal))) : Prop :=
  ∀ row ∈ rows, ∀ lit, some lit ∈ row → lit.Among texts

section Quoted

variable {texts : List String} {rows rows' : List (List (Option Literal))}

theorem Quoted.nil : Quoted texts [] := nofun

theorem Quoted.append (first : Quoted texts rows) (second : Quoted texts rows') :
    Quoted texts (rows ++ rows') :=
  List.forall_mem_append.2 ⟨first, second⟩

theorem Quoted.more (quoted : Quoted texts rows) (more : List String) :
    Quoted (texts ++ more) rows :=
  fun row member lit here => (quoted row member lit here).append more

theorem Quoted.occupied {row : List (Option Literal)}
    (among : ∀ lit, some lit ∈ row → lit.Among texts) : Quoted texts (occupied row) := by
  unfold SsaLowering.occupied
  split
  · exact List.forall_mem_singleton.2 among
  · exact .nil

end Quoted

namespace Ledger

variable {ledger : Ledger}

/-- The names stand for literals that have been evaluated. -/
def Sound (ledger : Ledger) : Prop :=
  ∀ x lit, ledger.names x = some lit → lit.Among ledger.texts

theorem Sound.past (sound : ledger.Sound) (texts : List String) : (ledger.past texts).Sound :=
  fun x lit named => (sound x lit named).append texts

theorem sound_blank : blank.Sound := nofun

end Ledger

section Expressions

variable {ledger : Ledger}

/-- The value of an expression is a literal of the expression or one from before. -/
theorem Expr.held_among : ∀ (expr : Expr) {ledger : Ledger} {lit : Literal}, ledger.Sound →
    expr.held ledger = some lit → lit.Among (ledger.texts ++ expr.literals)
  | .string text _, ledger, lit, _, held => by
    cases held
    simp [Literal.Among, Expr.literals]
  | .identifier name _, ledger, lit, sound, held => (sound name lit held).append _
  | .binary .assign lhs rhs _, ledger, lit, sound, held => by
    rw [Expr.held] at held
    have among := held_among rhs (sound.past lhs.literals) held
    rw [Expr.literals, ← List.append_assoc]
    exact among
  | .binary .add _ _ _, _, _, _, held | .binary .sub _ _ _, _, _, _, held
  | .binary .mul _ _ _, _, _, _, held | .binary .div _ _ _, _, _, _, held
  | .binary .lt _ _ _, _, _, _, held | .binary .gt _ _ _, _, _, _, held
  | .binary .eq _ _ _, _, _, _, held | .binary .ne _ _ _, _, _, _, held
  | .binary .and _ _ _, _, _, _, held | .binary .or _ _ _, _, _, _, held
  | .member .., _, _, _, held | .call .., _, _, _, held | .unary .., _, _, _, held
  | .bool .., _, _, _, held | .number .., _, _, _, held | .null .., _, _, _, held
  | .array .., _, _, _, held | .index .., _, _, _, held => by
    cases held

theorem Expr.allHeld_among : ∀ (exprs : List Expr) {ledger : Ledger} {lit : Literal},
    ledger.Sound → some lit ∈ Expr.allHeld ledger exprs →
      lit.Among (ledger.texts ++ Expr.allLiterals exprs)
  | [], ledger, lit, sound, listed => by cases listed
  | expr :: rest, ledger, lit, sound, listed => by
    rw [Expr.allLiterals, ← List.append_assoc]
    rcases List.mem_cons.1 listed with here | later
    · exact (expr.held_among sound here.symm).append _
    · exact allHeld_among rest (sound.past expr.literals) later

/-- A row of one literal at most, which an instruction with other operands has. -/
theorem Expr.quoted_held (expr : Expr) (sound : ledger.Sound) :
    Quoted (ledger.texts ++ expr.literals) (occupied [expr.held ledger]) ∧
      Quoted (ledger.texts ++ expr.literals) (occupied [expr.held ledger, none]) := by
  constructor <;> refine .occupied fun lit member => expr.held_among sound ?_ <;>
    simpa using Eq.symm (by simpa using member)

mutual

theorem Expr.quoted_uses : ∀ (expr : Expr) {ledger : Ledger}, ledger.Sound →
    Quoted (ledger.texts ++ expr.literals) (expr.uses ledger)
  | .call callee args _, ledger, sound => by
    have past := sound.past callee.literals
    rw [Expr.uses, Expr.literals, ← List.append_assoc]
    exact (((quoted_uses callee sound).more _).append (quoted_allUses args past)).append
      (.occupied fun lit member => Expr.allHeld_among args past member)
  | .binary .assign lhs rhs _, ledger, sound => by
    have past := sound.past lhs.literals
    rw [Expr.uses, Expr.literals, ← List.append_assoc]
    exact (((quoted_uses lhs sound).more _).append (quoted_uses rhs past)).append
      (rhs.quoted_held past).2
  | .binary .add lhs rhs _, ledger, sound => by
    have past := sound.past lhs.literals
    rw [Expr.uses, Expr.literals, ← List.append_assoc]
    refine (((quoted_uses lhs sound).more _).append (quoted_uses rhs past)).append
      (.occupied fun lit member => ?_)
    rcases List.mem_cons.1 member with left | right
    · exact (lhs.held_among sound left.symm).append _
    · exact rhs.held_among past (List.mem_singleton.1 right).symm
  | .binary .sub _ _ _, _, _ | .binary .mul _ _ _, _, _ | .binary .div _ _ _, _, _
  | .binary .lt _ _ _, _, _ | .binary .gt _ _ _, _, _ | .binary .eq _ _ _, _, _
  | .binary .ne _ _ _, _, _ | .binary .and _ _ _, _, _ | .binary .or _ _ _, _, _
  | .identifier .., _, _ | .member .., _, _ | .unary .., _, _ | .bool .., _, _
  | .number .., _, _ | .string .., _, _ | .null .., _, _ | .array .., _, _
  | .index .., _, _ => by
    simpa only [Expr.uses] using Quoted.nil

theorem Expr.quoted_allUses : ∀ (exprs : List Expr) {ledger : Ledger}, ledger.Sound →
    Quoted (ledger.texts ++ Expr.allLiterals exprs) (Expr.allUses ledger exprs)
  | [], ledger, sound => by
    rw [Expr.allUses]
    exact .nil
  | expr :: rest, ledger, sound => by
    rw [Expr.allUses, Expr.allLiterals, ← List.append_assoc]
    exact ((quoted_uses expr sound).more _).append
      (quoted_allUses rest (sound.past expr.literals))

end

end Expressions

section Statements

variable {ledger : Ledger}

theorem Declarator.quoted_uses (kind : BindingKind) (decl : Declarator) (sound : ledger.Sound) :
    Quoted (ledger.texts ++ decl.literals) (decl.uses kind ledger) := by
  unfold Declarator.uses Declarator.literals
  cases decl.init with
  | none => exact .nil
  | some expr =>
    refine (expr.quoted_uses sound).append ?_
    split
    · exact (expr.quoted_held sound).2
    · exact .nil

theorem Ledger.Sound.declare (sound : ledger.Sound) (kind : BindingKind) (decl : Declarator) :
    (ledger.declare kind decl).Sound := by
  intro x lit named
  replace named : Function.update ledger.names decl.name _ x = some lit := named
  rw [Function.update_apply] at named
  split at named
  · split at named
    · cases named
    · obtain ⟨expr, init, held⟩ := Option.bind_eq_some_iff.1 named
      have among := expr.held_among sound held
      rw [Ledger.declare, Declarator.literals, init]
      exact among
  · exact (sound x lit named).append _

theorem Declarator.quoted_allUses (kind : BindingKind) :
    ∀ (decls : List Declarator) {ledger : Ledger}, ledger.Sound →
      Quoted (ledger.texts ++ decls.flatMap Declarator.literals)
          (Declarator.allUses kind ledger decls) ∧
        (decls.foldl (Ledger.declare kind) ledger).Sound ∧
        (decls.foldl (Ledger.declare kind) ledger).texts =
          ledger.texts ++ decls.flatMap Declarator.literals
  | [], ledger, sound => ⟨.nil, sound, (List.append_nil _).symm⟩
  | decl :: rest, ledger, sound => by
    obtain ⟨quoted, sound', texts⟩ := quoted_allUses kind rest (sound.declare kind decl)
    rw [List.flatMap_cons, ← List.append_assoc]
    exact ⟨((decl.quoted_uses kind sound).more _).append quoted, sound', texts⟩

mutual

/-- The literals in the rows of a statement are its own or from before, and so are those that
names stand for behind it. -/
theorem Stmt.quoted_uses : ∀ (stmt : Stmt) {ledger : Ledger}, ledger.Sound →
    Quoted (ledger.texts ++ stmt.literals) (stmt.uses ledger) ∧ (ledger.behind stmt).Sound ∧
      (ledger.behind stmt).texts = ledger.texts ++ stmt.literals
  | .block stmts _, ledger, sound => by
    rw [Stmt.uses, Stmt.literals]
    exact ⟨quoted_allUses stmts sound, sound.past _, rfl⟩
  | .expression expr _, ledger, sound => by
    rw [Stmt.uses, Stmt.literals]
    exact ⟨expr.quoted_uses sound, sound.past _, rfl⟩
  | .ifElse condition thenBranch elseBranch _, ledger, sound => by
    obtain ⟨first, sound', texts⟩ := quoted_uses thenBranch (sound.past condition.literals)
    obtain ⟨second, sound'', texts'⟩ := quoted_usesOptional elseBranch sound'
    rw [texts] at second texts'
    rw [Stmt.uses, Stmt.literals, Ledger.behind, ← List.append_assoc, ← List.append_assoc]
    have asked := (condition.quoted_uses sound).append (condition.quoted_held sound).1
    exact ⟨(((asked.more _).append first).more _).append second, sound'', texts'⟩
  | .ret none _, ledger, sound => by
    rw [Stmt.uses]
    exact ⟨.nil, sound.past _, rfl⟩
  | .ret (some expr) _, ledger, sound => by
    rw [Stmt.uses, Stmt.literals]
    exact ⟨(expr.quoted_uses sound).append (expr.quoted_held sound).1, sound.past _, rfl⟩
  | .vars kind declarators _, ledger, sound => by
    rw [Stmt.uses, Stmt.literals, Ledger.behind]
    exact Declarator.quoted_allUses kind declarators sound
  | .whileLoop .., ledger, sound | .breakLoop .., ledger, sound
  | .continueLoop .., ledger, sound | .empty .., ledger, sound => by
    rw [Stmt.uses]
    exact ⟨.nil, sound.past _, rfl⟩

theorem Stmt.quoted_usesOptional : ∀ (stmt : Option Stmt) {ledger : Ledger}, ledger.Sound →
    Quoted (ledger.texts ++ Stmt.literalsOptional stmt) (Stmt.usesOptional ledger stmt) ∧
      (ledger.behindOptional stmt).Sound ∧
      (ledger.behindOptional stmt).texts = ledger.texts ++ Stmt.literalsOptional stmt
  | none, ledger, sound => by
    rw [Stmt.usesOptional, Ledger.behindOptional, Stmt.literalsOptional]
    exact ⟨.nil, sound, (List.append_nil _).symm⟩
  | some stmt, ledger, sound => by
    rw [Stmt.usesOptional, Ledger.behindOptional, Stmt.literalsOptional]
    exact quoted_uses stmt sound

theorem Stmt.quoted_allUses : ∀ (stmts : List Stmt) {ledger : Ledger}, ledger.Sound →
    Quoted (ledger.texts ++ Stmt.allLiterals stmts) (Stmt.allUses ledger stmts)
  | [], ledger, sound => by
    rw [Stmt.allUses]
    exact .nil
  | stmt :: rest, ledger, sound => by
    obtain ⟨first, sound', texts⟩ := quoted_uses stmt sound
    rw [Stmt.allUses, Stmt.allLiterals, ← List.append_assoc]
    refine (first.more _).append ?_
    split
    · exact .nil
    · rw [← texts]
      exact quoted_allUses rest sound'

end

end Statements

/-- What a function does with literals it does with its own. -/
theorem FunctionDecl.quoted_uses (decl : FunctionDecl) : Quoted decl.literals decl.uses := by
  unfold FunctionDecl.literals FunctionDecl.uses
  cases decl.body with
  | none => exact .nil
  | some body => exact Stmt.quoted_allUses body.stmts Ledger.sound_blank

end SsaLowering
