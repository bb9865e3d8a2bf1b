import CheckedIR.Proofs.Compiled
import CheckedIR.Proofs.Lowering.Construction

/-!
# Construction

The parameters of a constructor are made from the arguments of the call that it is first emitted
for. Those that declare properties are stored in the new object, after them the initializers of the
class, and what comes out is the object. A parameter property without an argument there is not
stored.
-/

namespace CheckedIR.Lowering

open CheckedIR.Ir CheckedIR.Program
open CheckedIR.Meaning (codeOf endOf)

/-! ## Constructors -/

/-- **Constructors initialize their objects.** A constructor with a body that was emitted allocates
an object of its owner. Before its own statements are lowered, it stores each parameter property
that it has a parameter for, and then the value of each initializer of its class in the order of the
members, in the field of that name. Its statements only add slots in front of this code and
instructions behind it. Unless they end it with the value of an expression, it returns the object.
-/
theorem compiled_initialization {p : Program} {o : Options} {s : State} (h : Compiles p o s)
    {g : FuncId} {q : Request}
    (hg : (g, q) ∈ s.origins) {function : FunctionLike} {body : Program.Block}
    (hfunction : q.decl.node.functionLike? = some function) (hshape : function.shape = .constructor)
    (hbody : function.body? = some body) :
    ∃ owner r fn this values before after, q.owner? = some owner ∧
      (∀ isOpaque, (Lower.record p owner isOpaque).run s = (.ok r, s)) ∧
      s.module.func? g = some fn ∧
      List.Forall₂ (fun x => HasComputed p g before x.2) (initializers (classMembers q.decl))
      values ∧
      HasFilled p g owner r this (parameterFields g fn.paramTypes function.params.zipIdx ++
        initializedFields (classMembers q.decl) values) before ∧
      HasLowered p g body before after ∧
      Embeds (codeOf before.module g) (codeOf after.module g) ∧
      codeOf s.module g = codeOf after.module g ∧
      ((∀ x, firstReturn? body.statements ≠ some (some x)) →
        endOf s.module g = some (.ret (some this))) := by
  obtain ⟨e, depth, body', scope, t, u, hdecl, howner, hbegins, hrun, hu⟩ :=
    h.emitted hg ⟨function, body, hfunction, hbody⟩
  obtain rfl : e.function = function :=
    Option.some.inj (hbegins.fits.function.symm.trans (hdecl ▸ hfunction))
  obtain rfl : body' = body := Option.some.inj (hbegins.body.symm.trans hbody)
  obtain ⟨-, owner, r, this, types, values, before, after, ho, hconstructs⟩ :=
    (hbegins.constructs (emitTo_works depth) hshape hbegins.reachable hbegins.admits).of_run_ok hrun
  have hdone := hconstructs.mono hu
  obtain ⟨ended, hcode, hreturns⟩ := hdone.ended
  have hlast : Changes p before s := hdone.changes.trans hdone.kept
  obtain ⟨fn, hf, rfl⟩ := hdone.made.parameters.mono hlast
  rw [← hdecl, ← howner]
  refine ⟨owner, r, fn, this, values, before, after, ho, run_record (hdone.made.record.mono hlast),
    hf, hdone.made.computed,
    hdone.made.filled, hdone.lowered, hdone.changes.embeds g, hcode.code, fun hno => ?_⟩
  rw [hcode.terminator, hreturns hno]

/-- A class with a parameter property `x` and an initialized property `y`. An object is made with
the given arguments. -/
def pointProgram (args : List Expr) : Program where
  files := [⟨.blank, "a.ts", [
    .classDecl { NodeInfo.blank with declares? := some ⟨"Point"⟩, type? := some ⟨"point"⟩ }
    "Point" [] false
      [.constructor .blank
        [⟨{ NodeInfo.blank with declares? := some ⟨"x"⟩, type? := some numberType }, "x", true⟩]
        (some (.mk .blank [])),
      .property { NodeInfo.blank with declares? := some ⟨"y"⟩, type? := some numberType } "y" false
        (some (.numeric .blank .zero))],
    .expression .blank (.construct { NodeInfo.blank with type? := some ⟨"point"⟩ }
      (.ident { NodeInfo.blank with symbol? := some ⟨"Point"⟩ } "Point") args)]⟩]
  types := intrinsics ++
    [(⟨"point"⟩, ⟨[.object], "", some ⟨"Point"⟩, [], [⟨"x"⟩, ⟨"y"⟩], none, none, none⟩)]
  symbols := [(⟨"Point"⟩, ⟨"Point", [.cls]⟩), (⟨"x"⟩, ⟨"x", [.prop]⟩), (⟨"y"⟩, ⟨"y", [.prop]⟩)]

def isPointRequest (q : Request) : Bool :=
  q.owner? == some ⟨"point"⟩ && q.decl.node.functionLike?.any fun fn =>
    fn.shape = .constructor && fn.params.map (fun x => (x.name, x.isProperty)) = [("x", true)] &&
      fn.body?.any (·.statements.isEmpty) && (initializers (classMembers q.decl)).map Prod.fst =
      ["y"]

theorem isPointRequest_iff {q : Request} (h : isPointRequest q = true) :
    q.owner? = some ⟨"point"⟩ ∧ ∃ fn x body e, q.decl.node.functionLike? = some fn ∧
      fn.shape = .constructor ∧
      fn.params = [x] ∧ x.name = "x" ∧ x.isProperty = true ∧ fn.body? = some body ∧
      body.statements = [] ∧
      initializers (classMembers q.decl) = [("y", e)] := by
  unfold isPointRequest at h
  obtain ⟨howner, hfn⟩ := Bool.and_eq_true_iff.1 h
  obtain ⟨fn, hfn, hrest⟩ := (Option.any_eq_true _ _).1 hfn
  simp only [Bool.and_eq_true, decide_eq_true_eq] at hrest
  obtain ⟨⟨⟨hshape, hparams⟩, hbody⟩, hinit⟩ := hrest
  obtain ⟨body, hbody, hempty⟩ := (Option.any_eq_true _ _).1 hbody
  obtain ⟨x, hx, hxname⟩ := List.map_eq_singleton_iff.1 hparams
  obtain ⟨⟨name, e⟩, hye, rfl⟩ := List.map_eq_singleton_iff.1 hinit
  obtain ⟨hname, hproperty⟩ := Prod.mk.inj hxname
  exact ⟨by simpa using howner, fn, x, body, e, hfn, hshape, hx, hname, hproperty, hbody,
    by simpa using hempty, hye⟩

/-- With an argument both properties are stored, and the point is returned. -/
theorem initialization_point :
    ∃ s g r this v before, Compiles (pointProgram [.numeric .blank .zero]) defaultOptions s ∧
    HasFilled (pointProgram [.numeric .blank .zero]) g ⟨"point"⟩ r this [("x", .param g 0 .double),
      ("y", v)] before ∧
    Embeds (codeOf before.module g) (codeOf s.module g) ∧
    endOf s.module g = some (.ret (some this)) := by
  have hs := compiles_finalState (p := pointProgram [.numeric .blank .zero]) (o := defaultOptions)
    (by decide +kernel)
  have hexists : ∃ x ∈ (finalState (pointProgram [.numeric .blank .zero]) defaultOptions).origins,
      isPointRequest x.2 = true ∧
      ((finalState (pointProgram [.numeric .blank .zero]) defaultOptions).module.func? x.1).map
        Func.paramTypes = some [.double] := by decide +kernel
  obtain ⟨⟨g, q⟩, hg, hq, htypes⟩ := hexists
  obtain ⟨howner, fn, x, body, e, hfn, hshape, hparams, hname, hproperty, hbody, hempty, hinit⟩ :=
    isPointRequest_iff hq
  obtain ⟨owner, r, func, this, values, before, after, ho, -, hf, hvalues, hfilled, -, hembeds,
    hcode, hreturns⟩ :=
    compiled_initialization hs hg hfn hshape hbody
  obtain rfl := Option.some.inj (ho.symm.trans howner)
  rw [hinit] at hvalues
  obtain ⟨v, rest, -, hrest, rfl⟩ := List.forall₂_cons_left_iff.1 hvalues
  obtain rfl := List.forall₂_nil_left_iff.1 hrest
  rw [hf] at htypes
  obtain htypes : func.paramTypes = [.double] := Option.some.inj htypes
  refine ⟨_, g, r, this, v, before, hs, ?_, hcode ▸ hembeds, hreturns fun y hy => ?_⟩
  · simpa [hparams, htypes, parameterFields, initializedFields, hinit, hname,
      hproperty] using hfilled
  · rw [hempty] at hy
    cases hy

def addressesFirst : Op → Bool
  | .field _ _ 0 => true
  | _ => false

/-- Without an argument the constructor has no parameter, and no instruction of it addresses the
property. -/
theorem initialization_without_argument :
    ∃ s g q fn x, Compiles (pointProgram []) defaultOptions s ∧ (g, q) ∈ s.origins ∧
    q.decl.node.functionLike? = some fn ∧ fn.shape = .constructor ∧ fn.body?.isSome ∧
    x ∈ fn.params ∧
    x.isProperty = true ∧ (pointProgram []).fieldIndex? ⟨"point"⟩ x.name = some 0 ∧
    ∀ k record base, (k, Op.field record base 0) ∉ codeOf s.module g := by
  have hs := compiles_finalState (p := pointProgram []) (o := defaultOptions) (by decide +kernel)
  have hexists :
      ∃ x ∈ (finalState (pointProgram []) defaultOptions).origins, isPointRequest x.2 = true ∧
      ∀ y ∈ codeOf (finalState (pointProgram []) defaultOptions).module x.1,
        addressesFirst y.2 = false := by
    decide +kernel
  obtain ⟨⟨g, q⟩, hg, hq, hno⟩ := hexists
  obtain ⟨-, fn, x, body, e, hfn, hshape, hparams, hname, hproperty, hbody, -, -⟩ :=
    isPointRequest_iff hq
  refine ⟨_, g, q, fn, x, hs, hg, hfn,
    hshape, by rw [hbody]; rfl, by simp [hparams], hproperty, ?_, fun k record base hk => ?_⟩
  · rw [hname]
    decide +kernel
  · cases hno _ hk

end CheckedIR.Lowering
