import CheckedIR.Proofs.Program.Settling
import CheckedIR.Proofs.Program.Whole

/-!
# Loading makes programs of acceptable listings

Main statement: a listing is that of a program exactly if it is acceptable, and if nothing in it is
null, the only one without any answer is one with a type whose value derails its reader. A listing
without gaps among its arguments makes a program without gaps.

The induction is over the nodes of a listing. A node is converted whatever its spot is, and its spot
decides afterwards whether it can stand there; what is claimed of a node is therefore everything but
its place.
-/

namespace CheckedIR.Program

open CheckedIR.Document

variable {α β : Type} {crash crash' gapless C C' : Prop} {Q : α → Prop} {Q' : β → Prop}

/-- From whatever number it starts, the conversion succeeds exactly if `C` holds. -/
def Decides (crash C : Prop) (Q : α → Prop) (x : Conversion α) : Prop :=
  ∀ n, Settles crash C (fun r => Q r.1) (x n)

namespace Decides

variable {x : Conversion α} {f : α → Conversion β} {a : α}

theorem pure (h : Q a) : Decides crash True Q (Pure.pure a : Conversion α) :=
  fun _ => Settles.pure h

theorem refuse {reason : String} :
    Decides crash False Q (Conversion.refuse reason : Conversion α) :=
  fun _ => Settles.refuse

theorem crashed (h : crash) : Decides crash False Q (throw .crashed : Conversion α) :=
  fun _ => Settles.crashed h

theorem bind (hx : Decides crash C Q x) (hf : ∀ a, Q a → Decides crash C' Q' (f a)) :
    Decides crash (C ∧ C') Q' (x >>= f) :=
  fun n => (hx n).bind fun r hr => hf r.1 hr r.2

theorem congr (hx : Decides crash C Q x) (h : C ↔ C') : Decides crash C' Q x :=
  fun n => (hx n).congr h

theorem weaken {P : α → Prop} (hx : Decides crash C Q x) (hcrash : crash → crash')
    (h : ∀ a, Q a → P a) : Decides crash' C P x :=
  fun n => (hx n).weaken hcrash fun r => h r.1

theorem labelled {label : String} (hx : Decides crash C Q x) :
    Decides crash C Q (Conversion.labelled label x) :=
  fun n => (hx n).labelled

theorem lift {y : Except Fault α} (hy : Settles crash C Q y) :
    Decides crash C Q (liftM y : Conversion α) :=
  fun n => (hy.bind fun a ha => Settles.pure (a := (a, n)) (Q := fun r => Q r.1) ha).congr
    (iff_of_eq (and_true _))

theorem mapM {ι : Type} {l : List ι} {f : ι → Conversion α} {P : ι → Prop}
    (h : ∀ i ∈ l, Decides crash (P i) Q (f i)) :
    Decides crash (∀ i ∈ l, P i) (fun as => ∀ a ∈ as, Q a) (l.mapM f) := by
  induction l with
  | nil => exact (Decides.pure nofun).congr (by simp)
  | cons i l ih =>
    rw [List.mapM_cons]
    exact Decides.congr ((h i List.mem_cons_self).bind fun a ha =>
      (ih fun j hj => h j (List.mem_cons_of_mem _ hj)).bind fun as has =>
        .pure (List.forall_mem_cons.2 ⟨ha, has⟩)) (by simp)

theorem number {y : Conversion α} (h : ∀ n, ∃ a m, y n = .ok (a, m) ∧ Q a) :
    Decides crash True Q y := fun n => by
  obtain ⟨a, m, hy, ha⟩ := h n
  rw [hy]
  exact ⟨trivial, ha⟩

end Decides

/-! ## Nodes by themselves -/

theorem annotate_decides {src : Source} {f : NodeFields} :
    Decides crash (src.names.Answers f) (fun _ => True) (annotate src f) := by
  unfold annotate
  refine Decides.labelled
    (Decides.congr ((Decides.lift (optional_settles typeId_settles)).bind fun _ _ =>
    (Decides.lift (optional_settles symbolId_settles)).bind fun _ _ =>
    (Decides.lift (optional_settles symbolId_settles)).bind fun _ _ =>
    (Decides.lift (optional_settles typeId_settles)).bind fun _ _ =>
    Decides.number fun n => ⟨_, _, rfl, trivial⟩) ?_)
  exact ⟨fun ⟨h1, h2, h3, h4, _⟩ => ⟨h1, h2, h3, h4⟩,
    fun ⟨h1, h2, h3, h4⟩ => ⟨h1, h2, h3, h4, trivial⟩⟩

/-! ### Literals -/

def ComparesNothing (x : Decoding α) : Prop :=
  ∀ anchors progress, x anchors progress ≠ .error .incomparable

namespace ComparesNothing

variable {x : Decoding α} {f : α → Decoding β} {a : α}

theorem pure : ComparesNothing (Pure.pure a : Decoding α) := fun _ _ => nofun

theorem fail : ComparesNothing (Decoding.fail : Decoding α) := fun _ _ => nofun

theorem bind (hx : ComparesNothing x) (hf : ∀ a, ComparesNothing (f a)) :
    ComparesNothing (x >>= f) := by
  intro anchors progress h
  change (x anchors progress >>= fun r => f r.1 anchors r.2) = _ at h
  cases hr : x anchors progress with
  | error e =>
    rw [hr] at h
    exact hx anchors progress (hr.trans (by simpa [Bind.bind, Except.bind] using h))
  | ok r =>
    rw [hr] at h
    exact hf r.1 anchors r.2 h

theorem mismatch : ComparesNothing (Decoding.mismatch : Decoding (Option α)) := fun _ _ => nofun

theorem visit : ComparesNothing Decoding.visit := by
  unfold Decoding.visit
  refine .bind (fun _ _ => nofun) fun _ => .bind (fun _ _ => nofun) fun p => ?_
  split
  · exact .fail
  · exact .pure

theorem reach {decode : Data → Decoding α} (h : ∀ d, ComparesNothing (decode d)) (d : Data) :
    ComparesNothing (Decoding.reach decode d) := by
  unfold Decoding.reach
  refine .bind .visit fun _ => ?_
  split
  · refine .bind (fun _ _ => nofun) fun p => ?_
    have rest {number target : Nat} : ComparesNothing (do
        modify fun p => { p with opened := number :: p.opened }
        Decoding.visit
        let a ← decode ((← read).piece target)
        modify fun p => { p with opened := p.opened.tail }
        return a) :=
      .bind (fun _ _ => nofun) fun _ => .bind .visit fun _ =>
        .bind (fun _ _ => nofun) fun anchors =>
        .bind (h _) fun _ => .bind (fun _ _ => nofun) fun _ => .pure
    dsimp only
    split
    · exact .bind .fail fun _ => rest
    · exact rest
  · exact h _

theorem scalar {decode : Scalar → Meaning → Option α} (d : Data) :
    ComparesNothing (Decoding.scalar decode d) := by
  refine reach (fun d => ?_) d
  split
  · refine .bind ?_ fun m => ?_
    · unfold Decoding.meaning
      split
      · exact .pure
      · exact .fail
    · split
      · exact .pure
      · split
        · exact .pure
        · exact .mismatch
  · exact .mismatch

end ComparesNothing

theorem decode_ne_incomparable {decode : Data → Decoding α} (h : ∀ d, ComparesNothing (decode d))
    {part : Part} : part.decode decode ≠ .error .incomparable := by
  intro he
  unfold Part.decode at he
  cases hr : decode part.data part.anchors .start with
  | error e =>
    rw [hr] at he
    exact h _ _ _ (hr.trans (by simpa [Bind.bind, Except.bind] using he))
  | ok r =>
    rw [hr] at he
    obtain ⟨a, progress⟩ := r
    simp only [Bind.bind, Except.bind] at he
    split at he <;> cases he

theorem literalValue_decides {decode : Data → Decoding (Option α)} {default : α}
    {value : Option Part} (h : ∀ d, ComparesNothing (decode d)) :
    Decides crash (HasValue decode value) (fun _ => True) (literalValue value decode default) := by
  unfold literalValue
  split
  · exact Decides.refuse.congr (by simp [HasValue])
  · rename_i part
    split
    · rename_i v hv
      exact (Decides.pure trivial).congr (by simp [HasValue, hv])
    · rename_i e he
      have hunreadable : e = .unreadable := by
        cases e with
        | unreadable => rfl
        | incomparable => exact absurd he (decode_ne_incomparable h)
      rw [hunreadable]
      exact Decides.refuse.congr (by simp [HasValue, he])

theorem valueOr_decides {decode : Data → Decoding (Option α)} {default : α} {value : Option Part}
    {label : String} {rest : α → Conversion β} (h : ∀ d, ComparesNothing (decode d))
    (hrest : ∀ v, Decides crash C' Q' (rest v)) :
    Decides crash (HasNoWrongValue decode value ∧ C') Q'
      (if value.isNone then Pure.pure default >>= rest
      else Conversion.labelled label (literalValue value decode default) >>= rest) := by
  cases value with
  | none => exact (hrest default).congr (by simp [HasNoWrongValue])
  | some part =>
    exact ((literalValue_decides h).labelled.bind fun v _ => hrest v).congr
      (by simp [HasValue, HasNoWrongValue])

theorem convertParam_decides {src : Source} {d : NodeListing} (hd : d = .absent → crash) :
    Decides crash (Fits src.names .parameter d) (fun _ => True) (convertParam src d) := by
  cases d with
  | absent => exact (Decides.crashed (hd rfl)).congr (by simpa using nofun)
  | node parts =>
    refine (annotate_decides.bind fun _ _ => Decides.pure trivial).congr ⟨fun h => ?_, fun h => ?_⟩
    · exact .node rfl h.1 trivial nofun
    · cases h with
      | node _ answers => exact ⟨answers, trivial⟩

/-! ## Nodes in their spots -/

def NodeListing.role (n : NodeListing) : Role := (ruleOf n.fields.kind).role

def Readable (names : Names) (n : NodeListing) : Prop :=
  ∃ parts, n = .node parts ∧ names.Answers parts.fields ∧
    (ruleOf parts.fields.kind).literal parts.fields.value ∧
    ∀ c ∈ (ruleOf parts.fields.kind).reads parts, Fits names c.1 c.2

theorem not_readable_absent {names : Names} : ¬ Readable names .absent := by
  rintro ⟨_, he, -⟩
  cases he

theorem fits_iff {names : Names} {spot : Spot} {n : NodeListing}
    (hspot : spot ≠ .parameter ∧ spot ≠ .variable) :
    Fits names spot n ↔ Readable names n ∧ spot.takes n.role := by
  have hrule (kind : String) : spot.rule kind = ruleOf kind := by
    unfold Spot.rule
    split
    · exact absurd rfl hspot.1
    · exact absurd rfl hspot.2
    · rfl
  constructor
  · rintro ⟨takes, answers, literal, reads⟩
    rw [hrule] at takes literal reads
    exact ⟨⟨_, rfl, answers, literal, reads⟩, takes⟩
  · rintro ⟨⟨parts, rfl, answers, literal, reads⟩, takes⟩
    exact .node (by rwa [hrule]) answers (by rwa [hrule]) (by rwa [hrule])

namespace Converted

def role : Converted → Role
  | .stmt (.block _) => .block
  | .stmt _ => .statement
  | .expr _ => .expression
  | .member _ => .member
  | .unknown _ _ => .unknown

def node : Converted → Node
  | .stmt s => .stmt s
  | .expr e => .expr e
  | .member m => .member m
  | .unknown info name => .expr (.unknown info name)

variable {src : Source} {f : NodeFields} {c : Converted}

theorem misplaced_decides {what : String} :
    Decides crash False Q (misplaced src f what : Conversion α) := .refuse

theorem asStmt_decides :
    Decides crash (Spot.statement.takes c.role) (fun s => c.node.IsWhole → (Node.stmt s).IsWhole)
    (c.asStmt src f) := by
  cases c with
  | stmt s => exact (Decides.pure id).congr (by cases s <;> simp [role, Spot.takes])
  | unknown i name =>
    exact (Decides.pure fun _ => ⟨nofun, fun _ hc => absurd hc List.not_mem_nil⟩).congr
      (by simp [role, Spot.takes])
  | _ => exact misplaced_decides.congr (by simp [role, Spot.takes])

theorem asExpr_decides : Decides crash (Spot.expression.takes c.role)
    (fun e => c.node.IsWhole → (Node.expr e).IsWhole) (c.asExpr src f) := by
  cases c with
  | expr e => exact (Decides.pure id).congr (by simp [role, Spot.takes])
  | unknown i name => exact (Decides.pure id).congr (by simp [role, Spot.takes])
  | stmt s => exact misplaced_decides.congr (by cases s <;> simp [role, Spot.takes])
  | member m => exact misplaced_decides.congr (by simp [role, Spot.takes])

theorem asMember_decides : Decides crash (Spot.member.takes c.role)
    (fun m => c.node.IsWhole → (Node.member m).IsWhole) (c.asMember src f) := by
  cases c with
  | member m => exact (Decides.pure id).congr (by simp [role, Spot.takes])
  | stmt s => exact misplaced_decides.congr (by cases s <;> simp [role, Spot.takes])
  | _ => exact misplaced_decides.congr (by simp [role, Spot.takes])

theorem asBody_decides : Decides crash (Spot.body.takes c.role)
    (fun b => c.node.IsWhole → b.node.IsWhole) (c.asBody src f) := by
  cases c with
  | stmt s =>
    cases s with
    | block b => exact (Decides.pure id).congr (by simp [role, Spot.takes])
    | _ => exact misplaced_decides.congr (by simp [role, Spot.takes])
  | _ => exact misplaced_decides.congr (by simp [role, Spot.takes])

end Converted

/-- Converting the node decides whether it is in order, and without gaps it becomes whole. -/
def Converts (src : Source) (crash gapless : Prop) (n : NodeListing) : Prop :=
  Decides crash (Readable src.names n) (fun c => c.role = n.role ∧
    (gapless → c.node.IsWhole)) (convert src n)

section
variable {src : Source} {n : NodeListing} {ns : List NodeListing}

theorem converts_absent (h : crash) : Converts src crash gapless .absent := by
  unfold Converts convert
  exact (Decides.crashed h).congr (by simp [not_readable_absent])

theorem Converts.place (spot : Spot) {as : Converted → Conversion α} {whole : α → Prop}
    (h : Converts src crash gapless n) (hspot : spot ≠ .parameter ∧ spot ≠ .variable)
    (has : ∀ c, Decides crash (spot.takes c.role) (fun a => c.node.IsWhole → whole a) (as c)) :
    Decides crash (Fits src.names spot n) (fun a => gapless → whole a) (convert src n >>= as) := by
  refine (Decides.bind h fun c hc => ?_).congr (fits_iff hspot).symm
  rw [← hc.1]
  exact (has c).weaken id fun a ha hg => ha (hc.2 hg)

theorem Converts.stmt {f : NodeFields} (h : Converts src crash gapless n) :
    Decides crash (Fits src.names .statement n) (fun s => gapless → (Node.stmt s).IsWhole)
      (convert src n >>= fun c => c.asStmt src f) :=
  h.place .statement ⟨nofun, nofun⟩ fun c => c.asStmt_decides

theorem Converts.expr {f : NodeFields} (h : Converts src crash gapless n) :
    Decides crash (Fits src.names .expression n) (fun e => gapless → (Node.expr e).IsWhole)
      (convert src n >>= fun c => c.asExpr src f) :=
  h.place .expression ⟨nofun, nofun⟩ fun c => c.asExpr_decides

theorem Converts.member {f : NodeFields} (h : Converts src crash gapless n) :
    Decides crash (Fits src.names .member n) (fun m => gapless → (Node.member m).IsWhole)
      (convert src n >>= fun c => c.asMember src f) :=
  h.place .member ⟨nofun, nofun⟩ fun c => c.asMember_decides

theorem Converts.body {f : NodeFields} (h : Converts src crash gapless n) :
    Decides crash (Fits src.names .body n) (fun b => gapless → b.node.IsWhole)
      (convert src n >>= fun c => c.asBody src f) :=
  h.place .body ⟨nofun, nofun⟩ fun c => c.asBody_decides

theorem exprFrom_decides {what : String} (h : n ≠ .absent → Converts src crash gapless n) :
    Decides crash (Fits src.names .expression n) (fun e => gapless → (Node.expr e).IsWhole)
      (exprFrom src what n (convert src n)) := by
  cases n with
  | absent => exact Decides.refuse.congr (by simpa using nofun)
  | node parts => exact (h nofun).expr

theorem optional_decides {spot : Spot} {x : Conversion Converted} {as : Converted → Conversion α}
    {whole : α → Prop} {parts : NodeParts NodeListing}
    (h : Decides crash (Fits src.names spot (.node parts)) (fun a => gapless →
      whole a) (x >>= as)) :
    Decides crash (∀ c ∈ ifThere spot (.node parts), Fits src.names c.1 c.2)
      (fun a? => gapless → ∀ a ∈ a?, whole a) (do return some (← as (← x))) := by
  have := Decides.congr
    (h.bind fun a ha => Decides.pure (a := some a) (Q := fun a? => gapless → ∀ b ∈ a?, whole b)
    fun hg b hb => Option.some.inj hb ▸ ha hg) (iff_of_eq (and_true _))
  simpa [ifThere, bind_assoc] using this

theorem exprFrom?_decides (h : n ≠ .absent → Converts src crash gapless n) :
    Decides crash (∀ c ∈ ifThere .expression n, Fits src.names c.1 c.2)
      (fun e? => gapless → ∀ e ∈ e?, (Node.expr e).IsWhole) (exprFrom? src n (convert src n)) := by
  cases n with
  | absent => exact (Decides.pure fun _ => nofun).congr (by simp [ifThere])
  | node parts => exact optional_decides (h nofun).expr

theorem stmtFrom?_decides (h : n ≠ .absent → Converts src crash gapless n) :
    Decides crash (∀ c ∈ ifThere .statement n, Fits src.names c.1 c.2)
      (fun s? => gapless → ∀ s ∈ s?, (Node.stmt s).IsWhole) (stmtFrom? src n (convert src n)) := by
  cases n with
  | absent => exact (Decides.pure fun _ => nofun).congr (by simp [ifThere])
  | node parts => exact optional_decides (h nofun).stmt

theorem bodyFrom?_decides (h : n ≠ .absent → Converts src crash gapless n) :
    Decides crash (∀ c ∈ ifThere .body n, Fits src.names c.1 c.2)
      (fun b? => gapless → ∀ b ∈ b?, b.node.IsWhole) (bodyFrom? src n (convert src n)) := by
  cases n with
  | absent => exact (Decides.pure fun _ => nofun).congr (by simp [ifThere])
  | node parts => exact optional_decides (h nofun).body

theorem isWhole_block {i : NodeInfo} {ss : List Stmt} (h : ∀ s ∈ ss, (Node.stmt s).IsWhole) :
    (Node.stmt (.block (.mk i ss))).IsWhole :=
  ⟨nofun, List.forall_mem_map.2 h⟩

theorem stmtFrom_decides (h : n ≠ .absent → Converts src crash gapless n) :
    Decides crash (∀ c ∈ ifThere .statement n, Fits src.names c.1 c.2)
      (fun s => gapless → (Node.stmt s).IsWhole) (stmtFrom src n (convert src n)) := by
  cases n with
  | absent =>
    have hanswers : src.names.Answers { NodeFields.empty with kind := "Block" } :=
      ⟨.inl rfl, .inl rfl, .inl rfl, .inl rfl⟩
    exact Decides.congr (annotate_decides.bind fun _ _ => .pure fun _ => isWhole_block nofun)
      (by simp [ifThere, hanswers])
  | node parts =>
    exact (h nofun).stmt.congr (by simp [ifThere])

/-! ### Lists of nodes -/

theorem convertStmts_eq_mapM :
    convertStmts src ns = ns.mapM fun d => convert src d >>= fun c => c.asStmt src d.fields := by
  induction ns with
  | nil => simp [convertStmts]
  | cons d ns ih => simp [convertStmts, ih]

theorem convertMembers_eq_mapM :
    convertMembers src ns = ns.mapM fun d => convert src d >>= fun c =>
      c.asMember src d.fields := by
  induction ns with
  | nil => simp [convertMembers]
  | cons d ns ih => simp [convertMembers, ih]

theorem convertArguments_eq_mapM :
    convertArguments src ns =
    ns.mapM fun d => do return (← exprFrom? src d (convert src d)).getD .missing := by
  induction ns with
  | nil => simp [convertArguments]
  | cons d ns ih => simp [convertArguments, ih]

def convertVariable (src : Source) : NodeListing → Conversion Variable
  | .absent => throw .crashed
  | .node parts => do
    let e ← exprFrom? src parts.initializer (convert src parts.initializer)
    return ⟨← annotate src parts.fields, parts.fields.name, e⟩

theorem convertVariables_eq_mapM : convertVariables src ns = ns.mapM (convertVariable src) := by
  induction ns with
  | nil => simp [convertVariables]
  | cons d ns ih =>
    cases d with
    | absent => rw [List.mapM_cons, convertVariables]; rfl
    | node parts => simp [convertVariables, convertVariable, ih]

theorem convertStmts_decides (h : ∀ d ∈ ns, Converts src crash gapless d) :
    Decides crash (∀ c ∈ each .statement ns, Fits src.names c.1 c.2)
      (fun ss => gapless → ∀ s ∈ ss, (Node.stmt s).IsWhole) (convertStmts src ns) := by
  rw [convertStmts_eq_mapM]
  exact ((Decides.mapM fun d hd => (h d hd).stmt).weaken id fun _ hss hg s hs => hss s hs hg).congr
    (by simp [each])

theorem convertMembers_decides (h : ∀ d ∈ ns, Converts src crash gapless d) :
    Decides crash (∀ c ∈ each .member ns, Fits src.names c.1 c.2)
      (fun ms => gapless → ∀ m ∈ ms, (Node.member m).IsWhole) (convertMembers src ns) := by
  rw [convertMembers_eq_mapM]
  exact ((Decides.mapM fun d hd => (h d hd).member).weaken id fun _ hms hg m hm => hms m hm
    hg).congr (by simp [each])

theorem convertArguments_decides (h : ∀ d ∈ ns, d ≠ .absent → Converts src crash gapless d)
    (hgaps : gapless → .absent ∉ ns) :
    Decides crash (∀ c ∈ ns.flatMap (ifThere .expression), Fits src.names c.1 c.2)
      (fun es => gapless → ∀ e ∈ es, (Node.expr e).IsWhole) (convertArguments src ns) := by
  rw [convertArguments_eq_mapM]
  refine ((Decides.mapM (P := fun d => ∀ c ∈ ifThere .expression d, Fits src.names c.1 c.2)
    (Q := fun e => gapless → (Node.expr e).IsWhole) fun d hd => ?_).weaken id
    fun _ hes hg e he => hes e he hg).congr ⟨fun h c hc => ?_, fun h d hd c hc =>
      h c (List.mem_flatMap.2 ⟨d, hd, hc⟩)⟩
  · cases d with
    | absent =>
      exact (Decides.pure fun hg => absurd hd (hgaps hg)).congr (by simp [ifThere])
    | node parts =>
      have hexpr := (h _ hd nofun).expr (f := parts.fields).bind fun e he => Decides.pure
        (a := e) he
      simpa [exprFrom?, ifThere] using hexpr
  · obtain ⟨d, hd, hc⟩ := List.mem_flatMap.1 hc
    exact h d hd c hc

theorem convertParams_decides (h : ∀ d ∈ ns, d = .absent → crash) :
    Decides crash (∀ c ∈ each .parameter ns, Fits src.names c.1 c.2) (fun _ => True)
    (ns.mapM (convertParam src)) :=
  ((Decides.mapM fun d hd => convertParam_decides (h d hd)).weaken id fun _ _ => trivial).congr
    (by simp [each])

theorem convertVariables_decides (habsent : ∀ d ∈ ns, d = .absent → crash)
    (h : ∀ parts, .node parts ∈ ns → parts.initializer ≠ .absent →
      Converts src crash gapless parts.initializer) :
    Decides crash (∀ c ∈ each .variable ns, Fits src.names c.1 c.2)
      (fun vs => gapless → ∀ v ∈ vs, (Node.declarator v).IsWhole) (convertVariables src ns) := by
  rw [convertVariables_eq_mapM]
  refine ((Decides.mapM (P := Fits src.names .variable)
    (Q := fun v => gapless → (Node.declarator v).IsWhole) fun d hd => ?_).weaken id
    fun _ hvs hg v hv => hvs v hv hg).congr (by simp [each])
  cases d with
  | absent => exact (Decides.crashed (habsent _ hd rfl)).congr (by simpa using nofun)
  | node parts =>
    refine Decides.congr
      ((exprFrom?_decides (h parts hd)).bind fun e? he => annotate_decides.bind fun _ _ =>
      .pure fun hg => Node.isWhole_declarator (he hg)) ⟨fun h => ?_, fun h => ?_⟩
    · exact .node rfl h.2.1 trivial h.1
    · cases h with
      | node _ answers _ reads => exact ⟨reads, answers, trivial⟩

/-! ## Nodes with all below them -/

structure Subnodes (src : Source) (crash gapless : Prop) (parts : NodeParts NodeListing) :
    Prop where
  statements : ∀ d ∈ parts.statements, Converts src crash gapless d
  members : ∀ d ∈ parts.members, Converts src crash gapless d
  parameters : ∀ d ∈ parts.parameters, d = .absent → crash
  declarations : ∀ d ∈ parts.declarations, d = .absent → crash
  initializers : ∀ q, .node q ∈ parts.declarations → q.initializer ≠ .absent →
    Converts src crash gapless q.initializer
  arguments : ∀ d ∈ parts.arguments, d ≠ .absent → Converts src crash gapless d
  gaps : gapless → .absent ∉ parts.arguments
  body : parts.body ≠ .absent → Converts src crash gapless parts.body
  expression : parts.expression ≠ .absent → Converts src crash gapless parts.expression
  left : parts.left ≠ .absent → Converts src crash gapless parts.left
  right : parts.right ≠ .absent → Converts src crash gapless parts.right
  operand : parts.operand ≠ .absent → Converts src crash gapless parts.operand
  initializer : parts.initializer ≠ .absent → Converts src crash gapless parts.initializer
  condition : parts.condition ≠ .absent → Converts src crash gapless parts.condition
  consequent : parts.consequent ≠ .absent → Converts src crash gapless parts.consequent
  alternative : parts.alternative ≠ .absent → Converts src crash gapless parts.alternative

theorem converts_of {parts : NodeParts NodeListing} {kind : String}
    (hkind : parts.fields.kind = kind)
    (hC : C ↔ (ruleOf kind).literal parts.fields.value ∧
      (∀ c ∈ (ruleOf kind).reads parts, Fits src.names c.1 c.2) ∧ src.names.Answers parts.fields)
    (h : Decides crash C (fun c => c.role = (ruleOf kind).role ∧ (gapless → c.node.IsWhole))
      (convert src (.node parts))) : Converts src crash gapless (.node parts) := by
  subst hkind
  exact h.congr (hC.trans ⟨fun ⟨h1, h2, h3⟩ => ⟨parts, rfl, h3, h1, h2⟩,
    fun ⟨_, he, h3, h1, h2⟩ => NodeListing.node.inj he ▸ ⟨h1, h2, h3⟩⟩)

theorem Decides.complete {f : NodeFields} {role : Role} {build : NodeInfo → Converted}
    (h : ∀ i, (build i).role = role ∧ (gapless → (build i).node.IsWhole)) :
    Decides crash (src.names.Answers f) (fun c => c.role = role ∧ (gapless → c.node.IsWhole))
      (do return build (← annotate src f)) :=
  Decides.congr (annotate_decides.bind fun i _ => .pure (h i)) (iff_of_eq (and_true _))

theorem convert_node_decides {parts : NodeParts NodeListing}
    (h : Subnodes src crash gapless parts) : Converts src crash gapless (.node parts) := by
  have leaf {n : Node} (hn : n ≠ .expr .missing) (hslots : n.slots = []) : gapless → n.IsWhole :=
    fun _ => ⟨hn, by simp [hslots]⟩
  have hcallable {ps : List Param} {b? : Option Block} (hb : ∀ b ∈ b?, b.node.IsWhole) :
      ∀ c ∈ ps.map Node.param ++ b?.toList.map Block.node, c.IsWhole :=
    List.forall_mem_append.2
      ⟨List.forall_mem_map.2 fun _ _ => Node.isWhole_param, by simpa using hb⟩
  obtain ⟨kind, hkind⟩ : ∃ kind, parts.fields.kind = kind := ⟨_, rfl⟩
  refine converts_of hkind Iff.rfl ?_
  unfold convert
  dsimp only
  rw [hkind]
  split
  -- EndOfFileToken
  · exact Decides.congr (.complete fun i => ⟨rfl, leaf nofun rfl⟩) (by simp [ruleOf])
  -- ModuleDeclaration
  · refine Decides.congr (.bind (.labelled (convertStmts_decides h.statements)) fun ss hss =>
      .complete fun i =>
      ⟨rfl, fun hg => ⟨nofun, ?_⟩⟩) (by simp [ruleOf])
    exact List.forall_mem_map.2 (hss hg)
  -- ClassDeclaration
  · refine Decides.congr
      (.bind (.labelled (convertMembers_decides h.members)) fun ms hms => .complete fun i =>
      ⟨rfl, fun hg => ⟨nofun, ?_⟩⟩) (by simp [ruleOf])
    exact List.forall_mem_map.2 (hms hg)
  -- InterfaceDeclaration
  · refine Decides.congr
      (.bind (.labelled (convertMembers_decides h.members)) fun ms hms => .complete fun i =>
      ⟨rfl, fun hg => ⟨nofun, ?_⟩⟩) (by simp [ruleOf])
    exact List.forall_mem_map.2 (hms hg)
  -- FunctionDeclaration
  · refine Decides.congr (.bind (.labelled (convertParams_decides h.parameters)) fun ps _ =>
      .bind (.labelled (bodyFrom?_decides h.body)) fun b? hb => .complete fun i =>
        ⟨rfl, fun hg => ⟨nofun, ?_⟩⟩)
      (by simp [ruleOf, or_imp, forall_and, and_assoc])
    exact hcallable (hb hg)
  -- MethodDeclaration
  · refine Decides.congr (.bind (.labelled (convertParams_decides h.parameters)) fun ps _ =>
      .bind (.labelled (bodyFrom?_decides h.body)) fun b? hb => .complete fun i =>
        ⟨rfl, fun hg => ⟨nofun, ?_⟩⟩)
      (by simp [ruleOf, or_imp, forall_and, and_assoc])
    exact hcallable (hb hg)
  -- MethodSignature
  · refine Decides.congr
      (.bind (.labelled (convertParams_decides h.parameters)) fun ps _ => .complete fun i =>
      ⟨rfl, fun _ => ⟨nofun, ?_⟩⟩) (by simp [ruleOf])
    exact List.forall_mem_map.2 fun _ _ => Node.isWhole_param
  -- Constructor
  · refine Decides.congr (.bind (.labelled (convertParams_decides h.parameters)) fun ps _ =>
      .bind (.labelled (bodyFrom?_decides h.body)) fun b? hb => .complete fun i =>
        ⟨rfl, fun hg => ⟨nofun, ?_⟩⟩)
      (by simp [ruleOf, or_imp, forall_and, and_assoc])
    exact hcallable (hb hg)
  -- IndexSignature
  · refine Decides.congr
      (.bind (.labelled (convertParams_decides h.parameters)) fun ps _ => .complete fun i =>
      ⟨rfl, fun _ => ⟨nofun, ?_⟩⟩) (by simp [ruleOf])
    exact List.forall_mem_map.2 fun _ _ => Node.isWhole_param
  -- PropertyDeclaration
  · refine Decides.congr
      (.bind (.labelled (exprFrom?_decides h.initializer)) fun e? he => .complete fun i =>
      ⟨rfl, fun hg => ⟨nofun, ?_⟩⟩) (by simp [ruleOf])
    exact List.forall_mem_map.2 fun e hmem => he hg e (Option.mem_toList.1 hmem)
  -- VariableStatement
  · refine Decides.congr (.bind (.labelled (convertVariables_decides h.declarations h.initializers))
      fun ds hds =>
      .complete fun i => ⟨rfl, fun hg => ⟨nofun, ?_⟩⟩) (by simp [ruleOf])
    exact List.forall_mem_map.2 (hds hg)
  -- ExpressionStatement
  · refine Decides.congr
      (.bind (.labelled (exprFrom_decides h.expression)) fun x hx => .complete fun i =>
      ⟨rfl, fun hg => ⟨nofun, ?_⟩⟩) (by simp [ruleOf])
    exact List.forall_mem_singleton.2 (hx hg)
  -- Block
  · exact Decides.congr (.bind (.labelled (convertStmts_decides h.statements)) fun ss hss =>
      .complete fun i =>
      ⟨rfl, fun hg => isWhole_block (hss hg)⟩) (by simp [ruleOf])
  -- ReturnStatement
  · refine Decides.congr
      (.bind (.labelled (exprFrom?_decides h.expression)) fun e? he => .complete fun i =>
      ⟨rfl, fun hg => ⟨nofun, ?_⟩⟩) (by simp [ruleOf])
    exact List.forall_mem_map.2 fun e hmem => he hg e (Option.mem_toList.1 hmem)
  -- IfStatement
  · refine Decides.congr (.bind (.labelled (exprFrom_decides h.condition)) fun c hc =>
      .bind (.labelled (stmtFrom_decides h.consequent)) fun s hs =>
      .bind (.labelled (stmtFrom?_decides h.alternative)) fun e? he => .complete fun i =>
        ⟨rfl, fun hg => ⟨nofun, ?_⟩⟩)
      (by simp [ruleOf, or_imp, forall_and, and_assoc])
    exact List.forall_mem_cons.2 ⟨hc hg, List.forall_mem_cons.2 ⟨hs hg, by simpa using he hg⟩⟩
  -- WhileStatement
  · refine Decides.congr (.bind (.labelled (exprFrom_decides h.condition)) fun c hc =>
      .bind (.labelled (stmtFrom_decides h.body)) fun b hb => .complete fun i =>
        ⟨rfl, fun hg => ⟨nofun, ?_⟩⟩)
      (by simp [ruleOf, and_assoc])
    exact List.forall_mem_cons.2 ⟨hc hg, List.forall_mem_singleton.2 (hb hg)⟩
  -- NumericLiteral
  · exact Decides.congr
      (.bind (.labelled (literalValue_decides .scalar)) fun v _ => .complete fun i =>
      ⟨rfl, leaf nofun rfl⟩) (by simp [ruleOf])
  -- StringLiteral
  · exact Decides.congr
      (.bind (.labelled (literalValue_decides .scalar)) fun v _ => .complete fun i =>
      ⟨rfl, leaf nofun rfl⟩) (by simp [ruleOf])
  -- BooleanLiteral
  · exact Decides.congr (valueOr_decides .scalar fun v => .complete fun i => ⟨rfl, leaf nofun rfl⟩)
      (by simp [ruleOf])
  -- TrueKeyword
  · exact Decides.congr (valueOr_decides .scalar fun v => .complete fun i => ⟨rfl, leaf nofun rfl⟩)
      (by simp [ruleOf])
  -- FalseKeyword
  · exact Decides.congr (valueOr_decides .scalar fun v => .complete fun i => ⟨rfl, leaf nofun rfl⟩)
      (by simp [ruleOf])
  -- Identifier
  · exact Decides.congr (.complete fun i => ⟨rfl, leaf nofun rfl⟩) (by simp [ruleOf])
  -- ThisKeyword
  · exact Decides.congr (.complete fun i => ⟨rfl, leaf nofun rfl⟩) (by simp [ruleOf])
  -- BinaryExpression
  · refine Decides.congr (.bind (.labelled (exprFrom_decides h.left)) fun l hl =>
      .bind (.labelled (exprFrom_decides h.right)) fun r hr => .complete fun i =>
        ⟨rfl, fun hg => ⟨nofun, ?_⟩⟩)
      (by simp [ruleOf, and_assoc])
    exact List.forall_mem_cons.2 ⟨hl hg, List.forall_mem_singleton.2 (hr hg)⟩
  -- PrefixUnaryExpression
  · refine Decides.congr
      (.bind (.labelled (exprFrom_decides h.operand)) fun x hx => .complete fun i =>
      ⟨rfl, fun hg => ⟨nofun, ?_⟩⟩) (by simp [ruleOf])
    exact List.forall_mem_singleton.2 (hx hg)
  -- PropertyAccessExpression
  · refine Decides.congr
      (.bind (.labelled (exprFrom_decides h.expression)) fun x hx => .complete fun i =>
      ⟨rfl, fun hg => ⟨nofun, ?_⟩⟩) (by simp [ruleOf])
    exact List.forall_mem_singleton.2 (hx hg)
  -- NewExpression
  · refine Decides.congr (.bind (.labelled (exprFrom_decides h.expression)) fun callee hcallee =>
      .bind (.labelled (convertArguments_decides h.arguments h.gaps)) fun args hargs =>
        .complete fun i =>
      ⟨rfl, fun hg => ⟨nofun, ?_⟩⟩) (by simp [ruleOf, and_assoc])
    exact List.forall_mem_cons.2 ⟨hcallee hg, List.forall_mem_map.2 (hargs hg)⟩
  -- CallExpression
  · refine Decides.congr (.bind (.labelled (exprFrom_decides h.expression)) fun callee hcallee =>
      .bind (.labelled (convertArguments_decides h.arguments h.gaps)) fun args hargs =>
        .complete fun i =>
      ⟨rfl, fun hg => ⟨nofun, ?_⟩⟩) (by simp [ruleOf, and_assoc])
    exact List.forall_mem_cons.2 ⟨hcallee hg, List.forall_mem_map.2 (hargs hg)⟩
  -- kinds that are not known
  · have hrule : ruleOf kind = { role := .unknown, reads := fun _ => [] } := by
      unfold ruleOf
      split <;> first | rfl | contradiction
    exact Decides.congr (.complete fun i => ⟨by rw [hrule]; rfl, leaf nofun rfl⟩) (by simp [hrule])

end

/-! ## All nodes -/

theorem sizeOf_lt_of_mem_subnodes {parts : NodeParts NodeListing} {c : NodeListing}
    (h : c ∈ parts.subnodes) : sizeOf c < sizeOf (NodeListing.node parts) := by
  have listed {ns : List NodeListing} (h : c ∈ ns) : sizeOf c < sizeOf ns := List.sizeOf_lt_of_mem h
  obtain ⟨f, ss, ms, ps, ds, args, body, expression, left, right, operand, initializer, condition,
    consequent, alternative⟩ := parts
  simp only [NodeParts.subnodes, List.mem_append, List.mem_cons, List.not_mem_nil, or_false] at h
  simp only [NodeListing.node.sizeOf_spec, NodeParts.mk.sizeOf_spec]
  rcases h with ((((h | h) | h) | h) | h) | rfl | rfl | rfl | rfl | rfl | rfl | rfl | rfl | rfl
  all_goals first | have := listed h; omega | omega

theorem NodeListing.All.of_mem {P : NodeParts NodeListing → Prop} {parts : NodeParts NodeListing}
    {c : NodeListing} (h : (NodeListing.node parts).All P) (hc : c ∈ parts.subnodes) : c.All P := by
  cases h with
  | node _ subnodes => exact subnodes c hc

theorem NodeListing.All.here {P : NodeParts NodeListing → Prop} {parts : NodeParts NodeListing}
    (h : (NodeListing.node parts).All P) : P parts := by
  cases h with
  | node here _ => exact here

theorem NodeListing.all_node {P : NodeParts NodeListing → Prop} {parts : NodeParts NodeListing} :
    (NodeListing.node parts).All P ↔ P parts ∧ ∀ c ∈ parts.subnodes, c.All P :=
  ⟨fun h => ⟨h.here, fun _ => h.of_mem⟩, fun h => .node h.1 h.2⟩

theorem Converts.weaken {src : Source} {n : NodeListing} {gapless' : Prop}
    (h : Converts src crash gapless n)
    (hcrash : crash → crash') (hgapless : gapless' → gapless) : Converts src crash' gapless' n :=
  Decides.weaken h hcrash fun _ hc => ⟨hc.1, fun hg => hc.2 (hgapless hg)⟩

/-- A node crashes its conversion only if it is null or has a null in one of its lists. -/
def NodeListing.IsRisky (n : NodeListing) : Prop := n = .absent ∨ ¬ n.All NodeParts.HasNoNulls

theorem convert_decides {src : Source} (n : NodeListing) :
    Converts src n.IsRisky (n.All NodeParts.HasNoGaps) n := by
  induction hsize : sizeOf n using Nat.strongRecOn generalizing n with
  | _ size ih =>
    subst hsize
    cases n with
    | absent => exact converts_absent (.inl rfl)
    | node parts =>
      have single (c : NodeListing) (hc : c ∈ parts.subnodes) (hpresent : c ≠ .absent) :
          Converts src (NodeListing.node parts).IsRisky
          ((NodeListing.node parts).All NodeParts.HasNoGaps) c :=
        (ih _ (sizeOf_lt_of_mem_subnodes hc) c rfl).weaken
          (fun h => .inr fun hall => h.elim hpresent fun hc' => hc' (hall.of_mem hc)) fun hall =>
            hall.of_mem hc
      have risky (hnull : .absent ∈ parts.statements ++ parts.members ++ parts.parameters ++
          parts.declarations) : (NodeListing.node parts).IsRisky := .inr fun hall => hall.here hnull
      have listed (c : NodeListing) (hc : c ∈ parts.subnodes)
          (hlist : c ∈ parts.statements ++ parts.members ++ parts.parameters ++
            parts.declarations) :
          Converts src (NodeListing.node parts).IsRisky
            ((NodeListing.node parts).All NodeParts.HasNoGaps) c := by
        cases c with
        | absent => exact converts_absent (risky hlist)
        | node q => exact single _ hc nofun
      refine convert_node_decides {
        statements := fun d hd => listed d (by simp [NodeParts.subnodes, hd]) (by simp [hd])
        members := fun d hd => listed d (by simp [NodeParts.subnodes, hd]) (by simp [hd])
        parameters := fun d hd habsent => risky (by simp [← habsent, hd])
        declarations := fun d hd habsent => risky (by simp [← habsent, hd])
        initializers := fun q hq hpresent => ?_
        arguments := fun d hd => single d (by simp [NodeParts.subnodes, hd])
        gaps := fun hall => hall.here
        body := single _ (by simp [NodeParts.subnodes])
        expression := single _ (by simp [NodeParts.subnodes])
        left := single _ (by simp [NodeParts.subnodes])
        right := single _ (by simp [NodeParts.subnodes])
        operand := single _ (by simp [NodeParts.subnodes])
        initializer := single _ (by simp [NodeParts.subnodes])
        condition := single _ (by simp [NodeParts.subnodes])
        consequent := single _ (by simp [NodeParts.subnodes])
        alternative := single _ (by simp [NodeParts.subnodes]) }
      have hq' : .node q ∈ parts.subnodes := by simp [NodeParts.subnodes, hq]
      have hinit : q.initializer ∈ q.subnodes := by simp [NodeParts.subnodes]
      exact (ih _ (Nat.lt_trans (sizeOf_lt_of_mem_subnodes hinit) (sizeOf_lt_of_mem_subnodes hq'))
        _ rfl).weaken (fun h => .inr fun hall => h.elim hpresent fun hc =>
          hc ((hall.of_mem hq').of_mem hinit))
        fun hall => (hall.of_mem hq').of_mem hinit

/-! ## Files -/

theorem convertFile_decides {names : Names} {f : FileListing} :
    Decides (∃ n ∈ f.statements, n.IsRisky) (∀ n ∈ f.statements, Fits names .statement n)
      (fun file => (∀ n ∈ f.statements, n.All NodeParts.HasNoGaps) →
        (Node.file file).IsWhole) (convertFile names f) := by
  have hstatements :
      Decides (∃ n ∈ f.statements, n.IsRisky) (∀ c ∈ each .statement f.statements,
        Fits names c.1 c.2)
      (fun ss => (∀ n ∈ f.statements, n.All NodeParts.HasNoGaps) → ∀ s ∈ ss, (Node.stmt s).IsWhole)
      (convertStmts ⟨f.name, names⟩ f.statements) :=
    convertStmts_decides fun d hd => (convert_decides d).weaken (fun h => ⟨d, hd, h⟩) fun h =>
      h d hd
  exact Decides.congr (hstatements.bind fun ss hss => .number fun n =>
    ⟨_, _, rfl, fun hg => ⟨nofun, List.forall_mem_map.2 (hss hg)⟩⟩) (by simp [each])

def convertFile? (names : Names) : Option FileListing → Conversion SourceFile
  | none => throw .crashed
  | some f => Conversion.labelled ("file " ++ f.name) (convertFile names f)

theorem convertFiles_eq_mapM {names : Names} {fs : List (Option FileListing)} :
    convertFiles names fs = fs.mapM (convertFile? names) := by
  induction fs with
  | nil => simp [convertFiles]
  | cons f? fs ih =>
    cases f? with
    | none => rw [List.mapM_cons, convertFiles]; rfl
    | some f => simp [convertFiles, convertFile?, ih]

theorem convertFiles_decides {names : Names} {l : Listing} :
    Decides (¬ l.HasNoNulls) (∀ f? ∈ l.files, ∃ f, f? = some f ∧
      ∀ n ∈ f.statements, Fits names .statement n)
      (fun files => l.HasNoGaps →
        ∀ file ∈ files, (Node.file file).IsWhole) (convertFiles names l.files) := by
  rw [convertFiles_eq_mapM]
  refine (Decides.mapM (Q := fun file => l.HasNoGaps →
    (Node.file file).IsWhole) fun f? hf => ?_).weaken id fun _ h hg file hfile => h file hfile hg
  cases f? with
  | none => exact (Decides.crashed fun h => h.files hf).congr (by simp)
  | some f =>
    refine (convertFile_decides.labelled.weaken ?_ fun _ h hg => h (hg f hf)).congr (by simp)
    rintro ⟨n, hn, rfl | hrisky⟩ hl
    · exact hl.statements f hf hn
    · exact hrisky (hl.nodes f hf n hn)

/-! ## Listings -/

theorem ofListing_settles (l : Listing) :
    Settles (l.HasNoNulls → l.Derails) l.IsAcceptable (fun p => l.HasNoGaps →
      p.IsWhole) (ofListing l) := by
  unfold ofListing
  split
  · rename_i h
    exact Settles.refuse.congr ⟨False.elim, fun ha => ha.files (List.isEmpty_iff.1 h)⟩
  rename_i h
  have hfiles : l.files ≠ [] := fun he => h (List.isEmpty_iff.2 he)
  refine Settles.congr
    (.bind_of (loadSymbols_settles.weaken (fun ⟨e, he, hnone⟩ hl => absurd hnone (hl.symbols e he))
    fun _ h => h) fun hsymbols symbols hkeys => ?_) (C := _ ∧
      ((∀ e ∈ l.types, ∃ t, e.2 = some t ∧ t.IsReadable ∧
      t.IsLinked l.names) ∧ ∀ f? ∈ l.files, ∃ f, f? = some f ∧
        ∀ n ∈ f.statements, Fits l.names .statement n))
    ⟨fun ⟨h1, h2, h3⟩ => ⟨hfiles, h1, h2, h3⟩, fun ha => ⟨ha.symbols, ha.types, ha.statements⟩⟩
  have hnames :
      l.names = ⟨(byName l.types).map (⟨·.1⟩) ++ intrinsics.map (·.1), symbols.map (·.1)⟩ := by
    rw [hkeys, Listing.names]
  refine .bind ((loadTypes_settles hnames).weaken ?_ fun _ h => h) fun types htypes => ?_
  · rintro ⟨before, ⟨key, t?⟩, after, hentries, hbefore, rfl | ⟨t, rfl, ht⟩⟩ hl
    · exact absurd rfl (hl.types (key, none) (mem_byName.1 (by simp [hentries])))
    · exact ⟨hfiles, hsymbols, before, key, t, after, hentries, hbefore, ht⟩
  · have hsource : (⟨types.map (·.1), symbols.map (·.1)⟩ : Names) = l.names := by
      rw [htypes, hnames]
    rw [hsource]
    exact Settles.congr
      (.bind ((convertFiles_decides 0).weaken (fun h hl => absurd hl h) fun _ h => h)
      fun r hr => .pure hr) (iff_of_eq (and_true _))

theorem ofListing_crashed_of_derails {l : Listing} (h : l.Derails) :
    ofListing l = .error .crashed := by
  obtain ⟨before, key, t, after, hentries, hbefore, hflags, part, hpart, hderails⟩ := h.types
  obtain ⟨symbols, hsymbols, -⟩ := loadSymbols_settles.exists_ok h.symbols
  obtain ⟨loaded, hloaded, -⟩ := (Settles.mapM fun e _ => loadType_settles e.1).exists_ok hbefore
  obtain ⟨flags, hread, -⟩ := (readFlags_settles : Settles False _ _ _).exists_ok hflags
  have htype : loadType key (some t) = .error .crashed := by
    simp only [loadType, hread, hpart, hderails]
    rfl
  have htypes : (byName l.types).mapM (fun e => loadType e.1 e.2) = .error .crashed := by
    rw [hentries, List.mapM_append, hloaded, List.mapM_cons, htype]
    rfl
  have hall : loadTypes (symbols.map (·.1)) l.types = .error .crashed := by
    unfold loadTypes
    rw [htypes]
    rfl
  unfold ofListing
  rw [if_neg fun he => h.files (List.isEmpty_iff.1 he), hsymbols]
  change (loadTypes (symbols.map (·.1)) l.types >>= _) = _
  rw [hall]
  rfl

/-- **Loading accepts the acceptable listings.** A listing has a program exactly if it is
acceptable, wherever its nulls are. If it has none where something has to stand, the only one
without any answer, neither a program nor a reason, is one that derails; otherwise there is always
one or the other. -/
theorem listing_accepted (l : Listing) :
    ((∃ p, ofListing l = .ok p) ↔ l.IsAcceptable) ∧ ofListing l ≠ .error .exhausted ∧
      (l.HasNoNulls → (ofListing l = .error .crashed ↔ l.Derails)) := by
  have h := ofListing_settles l
  refine ⟨h.ok_iff, fun he => ?_, fun hnulls => ⟨fun he => ?_, ofListing_crashed_of_derails⟩⟩
  · rw [he] at h
    exact h.2.1 rfl
  · rw [he] at h
    exact h.2.2 rfl hnulls

/-- The value `{1: x, <<: {[1]: 2}}`. -/
def derailingValue : Part :=
  let key : Data := .scalar (.plain "1")
  ⟨.table .table [(key, .scalar (.plain "x")),
    (.scalar ⟨"<<", .merge⟩, .table .table [(.list .list [key], .scalar (.plain "2"))])], ⟨[], 8⟩⟩

def derailingListing : Listing :=
  ⟨[some ⟨"a.ts", []⟩], [("t", some ⟨["object"], "", "", [], [], "", "", some derailingValue⟩)], []⟩

def sampleNode (kind : String) (parts : NodeParts NodeListing → NodeParts NodeListing) :
    NodeListing :=
  .node (parts { NodeParts.empty with fields := { NodeFields.empty with kind } })

/-- The statement `if (x) f(x);`, without an alternative. -/
def sampleListing : Listing :=
  let x := sampleNode "Identifier" id
  let call := sampleNode "CallExpression" fun n => { n with expression := x, arguments := [x] }
  let statement := sampleNode "ExpressionStatement" fun n => { n with expression := call }
  ⟨[some ⟨"a.ts",
    [sampleNode "IfStatement" fun n => { n with condition := x, consequent := statement }]⟩],
      [], []⟩

/-- An acceptable listing, and one without nulls that has no answer. -/
theorem listing_accepted_sample : sampleListing.IsAcceptable ∧ derailingListing.HasNoNulls ∧
    ¬ derailingListing.IsAcceptable ∧ ofListing derailingListing = .error .crashed := by
  have hnulls : derailingListing.HasNoNulls :=
    ⟨by simp [derailingListing], by simp [derailingListing], by simp [derailingListing],
      by simp [derailingListing],
      by simp [derailingListing]⟩
  have hderails : derailingListing.Derails :=
    ⟨nofun, nofun, [], "t", _, [], List.mergeSort_singleton _,
      nofun, by decide +kernel, _, rfl, by decide +kernel⟩
  have hok : (ofListing sampleListing).isOk = true := by decide +kernel
  have h := listing_accepted derailingListing
  have hcrash := (h.2.2 hnulls).2 hderails
  refine ⟨(listing_accepted sampleListing).1.1 ?_, hnulls,
    fun ha => by simpa [hcrash] using h.1.2 ha, hcrash⟩
  cases hp : ofListing sampleListing with
  | ok p => exact ⟨p, rfl⟩
  | error e => rw [hp] at hok; cases hok

end CheckedIR.Program
