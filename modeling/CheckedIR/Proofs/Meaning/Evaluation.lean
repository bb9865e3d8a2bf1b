import CheckedIR.Program.Basic
import CheckedIR.Proofs.Meaning.Execution

/-!
# Evaluating numeric programs

The numeric programs have variables, blocks and functions at the top level, and compute with numbers
and truth values only. They are evaluated directly, from left to right. A name means the nearest
variable or parameter around it, and the function of this name if there is none: scopes are searched
from the inside outwards, and a function sees its own scopes and the global one, but none of its
caller. Which parameters a call binds is left open.
-/

namespace CheckedIR.Meaning

open CheckedIR.Ir CheckedIR.Program

/-! ## Numeric programs -/

inductive Operation
  | arith (a : Arith)
  | compare (c : Comparison)

def operation? : String → Option Operation
  | "+" => some (.arith .add)
  | "-" => some (.arith .sub)
  | "*" => some (.arith .mul)
  | "/" => some (.arith .div)
  | "%" => some (.arith .rem)
  | "==" | "===" => some (.compare .eq)
  | "!=" | "!==" => some (.compare .ne)
  | "<" => some (.compare .lt)
  | ">" => some (.compare .gt)
  | "<=" => some (.compare .le)
  | ">=" => some (.compare .ge)
  | _ => none

structure TopFunction where
  file : SourceFile
  info : NodeInfo
  name : String
  params : List Program.Param
  bodyInfo : NodeInfo
  body : List Stmt

def TopFunction.place (g : TopFunction) : Place :=
  ⟨.stmt (.function g.info g.name g.params (some (.mk g.bodyInfo g.body))), [.file g.file]⟩

def TopFunction.function (g : TopFunction) : FunctionLike :=
  ⟨.free, g.params, some (.mk g.bodyInfo g.body)⟩

def topFunctions (p : Program) : List TopFunction :=
  p.files.flatMap fun file => file.statements.filterMap fun
    | .function i name params (some (.mk j body)) => some ⟨file, i, name, params, j, body⟩
    | _ => none

def functionNames (p : Program) : List String := (topFunctions p).map TopFunction.name

mutual

def IsNumericExpr (p : Program) : Expr → Prop
  | .numeric .. | .boolean .. | .ident .. => True
  | .unary _ operator x => operator = "+" ∧ IsNumericExpr p x
  | .binary _ operator l r => (operation? operator).isSome ∧ IsNumericExpr p l ∧ IsNumericExpr p r
  | .call _ (.ident i _) args =>
    (∃ g ∈ topFunctions p, i.symbol?.bind p.declaration? = some g.place) ∧ AreNumericExprs p args
  | _ => False

def AreNumericExprs (p : Program) : List Expr → Prop
  | [] => True
  | e :: es => IsNumericExpr p e ∧ AreNumericExprs p es

end

mutual

def IsNumericStmt (p : Program) : Stmt → Prop
  | .variableDecl _ _ ds => ∀ d ∈ ds, ∀ e, d.initializer? = some e → IsNumericExpr p e
  | .expression _ e => IsNumericExpr p e
  | .block (.mk _ ss) => AreNumericStmts p ss
  | .ret _ e => ∀ x, e = some x → IsNumericExpr p x
  | _ => False

def AreNumericStmts (p : Program) : List Stmt → Prop
  | [] => True
  | s :: ss => IsNumericStmt p s ∧ AreNumericStmts p ss

end

def IsVoid (p : Program) (t : TypeId) : Prop :=
  (p.typeInfo t).has [.void] = true ∧ ∀ flag ∈ (p.typeInfo t).flags, flag = .void

def EndsWithReturn (ss : List Stmt) : Prop := ∃ i e, ss.getLast? = some (.ret i (some e))

def IsNumericTop (p : Program) : Stmt → Prop
  | .endOfFile _ => True
  | .function i _ _ body? => ∃ j body, body? = some (.mk j body) ∧ AreNumericStmts p body ∧
    (IsVoid p (i.returns?.getD voidType) ∨ EndsWithReturn body)
  | s => IsNumericStmt p s

structure IsNumeric (p : Program) : Prop where
  statements : ∀ file ∈ p.files, ∀ s ∈ file.statements, IsNumericTop p s
  names : (functionNames p).Nodup

/-! ## Evaluation -/

variable {F : Type}

abbrev Valuation (F : Type) := List (String × Datum F)

abbrev Applying (F : Type) := Valuation F → Place → List (Datum F) → Except Halt (Datum F)

def lookup (chain : List (Valuation F)) (name : String) : Option (Datum F) :=
  chain.findSome? fun scope => List.lookup name scope

def valueOf (p : Program) (chain : List (Valuation F)) (name : String) : Except Halt (Datum F) :=
  match lookup chain name with
  | some d => .ok d
  | none => if name ∈ functionNames p then .ok .function else .error .unbound

def declare (name : String) (d : Datum F) : List (Valuation F) → List (Valuation F)
  | [] => []
  | scope :: outer => ((name, d) :: scope) :: outer

def operate (N : Arithmetic F) : Operation → Datum F → Datum F → Except Halt (Datum F)
  | .arith a, .num x, .num y => .ok (.num (N.arith a x y))
  | .compare c, .num x, .num y => .ok (.truth (N.compare c x y))
  | _, _, _ => .error .illTyped

section
variable (N : Arithmetic F) (p : Program) (apply : Applying F)

mutual

def evalExpr (chain : List (Valuation F)) : Expr → Except Halt (Datum F)
  | .numeric _ x => .ok (.num (N.ofDouble x))
  | .boolean _ b => .ok (.truth b)
  | .ident _ name => valueOf p chain name
  | .unary _ _ x => evalExpr chain x
  | .binary _ operator l r => do
    let x ← evalExpr chain l
    let y ← evalExpr chain r
    operate N (← orIllTyped (operation? operator)) x y
  | .call _ callee args => do
    let xs ← evalExprs chain args
    apply (chain.getLastD []) (← orIllTyped (callee.info.symbol?.bind p.declaration?)) xs
  | _ => .error .illTyped

def evalExprs (chain : List (Valuation F)) : List Expr → Except Halt (List (Datum F))
  | [] => .ok []
  | e :: es => do
    let x ← evalExpr chain e
    return x :: (← evalExprs chain es)

end

structure Ran (F : Type) where
  chain : List (Valuation F)
  trace : List (String × Datum F)
  result? : Option (Datum F)

def evalVariables : List (Valuation F) → List Variable → Except Halt (Ran F)
  | chain, [] => .ok ⟨chain, [], none⟩
  | chain, d :: ds => do
    let x ← evalExpr N p apply chain (← orIllTyped d.initializer?)
    let r ← evalVariables (declare d.name x chain) ds
    return ⟨r.chain, (d.name, x) :: r.trace, none⟩

mutual

def evalStmt (chain : List (Valuation F)) : Stmt → Except Halt (Ran F)
  | .variableDecl _ _ ds => evalVariables N p apply chain ds
  | .expression _ e => do
    let _ ← evalExpr N p apply chain e
    return ⟨chain, [], none⟩
  | .block (.mk _ ss) => do
    let r ← evalStmts ([] :: chain) ss
    return ⟨chain, r.trace, r.result?⟩
  | .ret _ (some e) => return ⟨chain, [], some (← evalExpr N p apply chain e)⟩
  | .ret _ none => .ok ⟨chain, [], some .nothing⟩
  | .function .. | .endOfFile _ => .ok ⟨chain, [], none⟩
  | _ => .error .illTyped

def evalStmts (chain : List (Valuation F)) : List Stmt → Except Halt (Ran F)
  | [] => .ok ⟨chain, [], none⟩
  | s :: ss => do
    let r ← evalStmt chain s
    if r.result?.isSome then return r
    let r' ← evalStmts r.chain ss
    return ⟨r'.chain, r.trace ++ r'.trace, r'.result?⟩

end

end

end CheckedIR.Meaning
