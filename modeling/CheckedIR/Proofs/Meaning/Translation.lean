import CheckedIR.Proofs.Lowering.Change
import CheckedIR.Proofs.Meaning.Evaluation
import Mathlib.Logic.Function.Basic

/-!
# Translations

What the code of a numeric program looks like, told from its source: the instructions that stand for
an expression and the operand with its value, and the instructions, stack slots and variables that
stand for statements. Names stand for operands in the scopes around them or in the global scope of a
state `z`, and calls go to the functions that `z` has in its table. Every piece at the top level has
a state of its own, in which no later variable is bound yet.
-/

namespace CheckedIR.Meaning

open CheckedIR.Ir CheckedIR.Program CheckedIR.Lowering

abbrev Code := List (InstId × Op)

def Code.ids (c : Code) : List InstId := c.map Prod.fst

abbrev Locals := String → Option Value

def valueIn (e : Env) (k : Scope.ScopeId) (name : String) : Option Value :=
  match e.lookupIn k name with
  | some (.value v) => some v
  | _ => none

def globalOf (z : State) (name : String) : Option Value :=
  valueIn z.env Scope.Environment.global name

theorem valueIn_congr {e e' : Env} {k : Scope.ScopeId} {name : String}
    (h : e'.lookupIn k name = e.lookupIn k name) : valueIn e' k name = valueIn e k name := by
  unfold valueIn
  rw [h]

theorem lookupIn_of_valueIn {e : Env} {k : Scope.ScopeId} {name : String} {v : Value}
    (h : valueIn e k name = some v) : e.lookupIn k name = some (.value v) := by
  unfold valueIn at h
  split at h
  · rename_i w hw
    rw [hw, Option.some.inj h]
  · cases h

theorem valueIn_of_lookupIn {e : Env} {k : Scope.ScopeId} {name : String} {v : Value}
    (h : e.lookupIn k name = some (.value v)) : valueIn e k name = some v := by
  unfold valueIn
  rw [h]

theorem globalOf_changes {p : Program} {z y : State} {name : String} {v : Value}
    (hc : Changes p z y) (h : globalOf z name = some v) : globalOf y name = some v :=
  valueIn_of_lookupIn (hc.lookupIn (lookupIn_of_valueIn h))

inductive IsFunction : Value → Prop
  | intro {g : FuncId} {returns : Ty} {params : List Ty} {isVariadic : Bool} :
      IsFunction (.func g (.pointer (.func returns params isVariadic)))

inductive Loads (f : FuncId) (v : Value) : Code → Value → Prop
  | address {elem : Ty} {k : InstId} (h : v.type = .pointer elem)
      (helem : ∀ returns params isVariadic, elem ≠ .func returns params isVariadic) :
      Loads f v [(k, .load elem v)] (.inst f k elem)
  | value : Loads f v [] v

def Loaded (f : FuncId) (P : Code → Value → Prop) (c : Code) (v : Value) : Prop :=
  ∃ c₁ u c₂, P c₁ u ∧ Loads f u c₂ v ∧ c = c₁ ++ c₂

def Operation.op (x y : Value) : Operation → Op
  | .arith a => .arith a x y
  | .compare c => .compare c x y

def Operation.type : Operation → Ty
  | .arith _ => .double
  | .compare _ => .i1

/-- The code of an operator. What is done with records does not matter here, since no number is one.
-/
def OperatorCode (f : FuncId) (o : Operation) (x y : Value) (c : Code) (v : Value) : Prop :=
  (∃ r, x.type = .record r) ∨
  ∃ k, x.type = .double ∧ y.type = .double ∧ c = [(k, o.op x y)] ∧ v = .inst f k o.type

section
variable (p : Program) (z : State) (f : FuncId)

/-! ## Expressions -/

mutual

def ExprCode (L : Locals) : Expr → Code → Value → Prop
  | .numeric _ x, c, v => c = [] ∧ v = .const (.double x)
  | .boolean _ b, c, v => c = [] ∧ v = .const (.int 1 (if b then 1 else 0))
  | .ident _ name, c, v => c = [] ∧ (L name <|> globalOf z name) = some v ∧ v.isUsableIn f = true
  | .unary _ _ x, c, v => Loaded f (ExprCode L x) c v
  | .binary _ operator l r, c, v => ∃ o c₁ x c₂ y c₃, operation? operator = some o ∧
    Loaded f (ExprCode L l) c₁ x ∧ Loaded f (ExprCode L r) c₂ y ∧ OperatorCode f o x y c₃ v ∧
    c = c₁ ++ (c₂ ++ c₃)
  | .call _ callee args, c, v => ∃ g h fn c₁ vs k, g ∈ topFunctions p ∧
    callee.info.symbol?.bind p.declaration? = some g.place ∧ z.funcs.lookup g.name = some h ∧
    z.module.func? h = some fn ∧ ArgsCode L args c₁ vs ∧
    c = c₁ ++ [(k, .call (.func h (.pointer fn.signature)) vs)] ∧ v = .inst f k fn.returns
  | _, _, _ => False

def ArgsCode (L : Locals) : List Expr → Code → List Value → Prop
  | [], c, vs => c = [] ∧ vs = []
  | e :: es, c, vs =>
    ∃ c₁ w c₂ ws, Loaded f (ExprCode L e) c₁ w ∧ ArgsCode L es c₂ ws ∧ c = c₁ ++ c₂ ∧ vs = w :: ws

end

/-! ## Statements -/

@[ext]
structure Piece where
  code : Code
  slots : List (InstId × Ty)
  declared : List (String × Value)

namespace Piece

def empty : Piece := ⟨[], [], []⟩

def ofCode (c : Code) : Piece := ⟨c, [], []⟩

def allocas (P : Piece) : Code := P.slots.reverse.map fun (k, t) => (k, .alloca t)

instance : Append Piece :=
  ⟨fun P Q => ⟨P.code ++ Q.code, P.slots ++ Q.slots, P.declared ++ Q.declared⟩⟩

@[simp] theorem append_code (P Q : Piece) : (P ++ Q).code = P.code ++ Q.code := rfl
@[simp] theorem append_slots (P Q : Piece) : (P ++ Q).slots = P.slots ++ Q.slots := rfl
@[simp] theorem append_declared (P Q : Piece) : (P ++ Q).declared = P.declared ++ Q.declared := rfl

end Piece

def VariableCode (isConst : Bool) (L : Locals) (d : Variable) (P : Piece) (a : Value) : Prop :=
  ∃ e c v, d.initializer? = some e ∧ Loaded f (ExprCode p z f L e) c v ∧
    if isConst then a = v ∧ P = ⟨c, [], [(d.name, a)]⟩
    else ∃ k j, a = .inst f k (.pointer v.type) ∧
      P = ⟨c ++ [(j, .store v a)], [(k, v.type)], [(d.name, a)]⟩

def VariablesCode (isConst : Bool) (L : Locals) : List Variable → Piece → Locals → Prop
  | [], P, L' => P = .empty ∧ L' = L
  | d :: ds, P, L' => ∃ P₁ a P₂, VariableCode p z f isConst L d P₁ a ∧
    VariablesCode isConst (Function.update L d.name (some a)) ds P₂ L' ∧ P = P₁ ++ P₂

mutual

def StmtCode (L : Locals) : Stmt → Piece → Locals → Option Terminator → Prop
  | .variableDecl _ isConst ds, P, L', end? => VariablesCode p z f isConst L ds P L' ∧ end? = none
  | .expression _ e, P, L', end? =>
    ∃ c v, ExprCode p z f L e c v ∧ P = .ofCode c ∧ L' = L ∧ end? = none
  | .block (.mk _ ss), P, L', end? => StmtsCode L ss P end? ∧ L' = L
  | .ret _ (some e), P, _, end? =>
    ∃ c v, Loaded f (ExprCode p z f L e) c v ∧ P = .ofCode c ∧ end? = some (.ret (some v))
  | .ret _ none, P, _, end? => P = .empty ∧ end? = some (.ret none)
  | .function .., P, L', end? | .endOfFile _, P, L', end? => P = .empty ∧ L' = L ∧ end? = none
  | _, _, _, _ => False

def StmtsCode (L : Locals) : List Stmt → Piece → Option Terminator → Prop
  | [], P, end? => P = .empty ∧ end? = none
  | s :: ss, P, end? => ∃ P₁ L₁ end₁?, StmtCode L s P₁ L₁ end₁? ∧
    if end₁?.isSome then P = P₁ ∧ end? = end₁? else ∃ P₂, StmtsCode L₁ ss P₂ end? ∧ P = P₁ ++ P₂

end

end

/-! ## Functions -/

def paramBindings (h : FuncId) : Nat → List String → List Ty → List (String × Value)
  | index, name :: names, t :: ts =>
    if name.isEmpty then paramBindings h (index + 1) names ts
    else (name, .param h index t) :: paramBindings h (index + 1) names ts
  | _, _, _ => []

def TopFunction.paramNames (p : Program) (g : TopFunction) : List String :=
  (p.signature g.place.node g.function).params.map SymbolInfo.name

def BodyCode (p : Program) (z : State) (h : FuncId) (fn : Func) (g : TopFunction) : Prop :=
  h ≠ Lower.entryFunc ∧ ∃ b P end?, fn.IsBody b ∧
    StmtsCode p z h (fun name => (paramBindings h 0 (g.paramNames p) fn.paramTypes).lookup name)
    g.body P end? ∧
    b.code = P.allocas ++ P.code ∧ b.term? = some (end?.getD (.ret none))

/-- What the table has under a name: the code of the function of this name, or a function that takes
a record and cannot be called with numbers. -/
def Emitted (p : Program) (z : State) (name : String) (h : FuncId) : Prop :=
  ∃ fn, z.module.func? h = some fn ∧ fn.isVariadic = false ∧
    (∀ t ∈ fn.returns :: fn.paramTypes, t.IsField z.module.records) ∧
    ((∃ r ts, fn.paramTypes = .record r :: ts) ∨ ∃ g ∈ topFunctions p, g.name = name ∧
      BodyCode p z h fn g)

/-! ## The top level -/

/-- In state `z`, on the way to `y`, global names stand for the variables `V` and for functions, and
all functions in the table are emitted. -/
structure Stage (p : Program) (V : List String) (z y : State) : Prop where
  changes : Changes p z y
  names : ∀ name v, globalOf z name = some v → name ∈ V ∨ name ∈ functionNames p ∧ IsFunction v
  emitted : ∀ name h, z.funcs.lookup name = some h → Emitted p z name h

section
variable (p : Program) (y : State)

end

end CheckedIR.Meaning
