import CheckedIR.Proofs.Lowering.Unbounded
import CheckedIR.Proofs.Naming

/-!
# Sessions

A lowering can be asked for files and to finish, again and again and in any order, also after
something failed. At all times its tables list what its module has, nothing is entered twice or
taken back, and every demand comes to an end.
-/

namespace CheckedIR.Lowering

open CheckedIR.Ir CheckedIR.Program CheckedIR.Scope CheckedIR.Scope.Action

inductive Demand
  | generate (file : SourceFile)
  | finish

def Demand.action (p : Program) : Demand → Lower Unit
  | .generate file => Lower.generate p file
  | .finish => Lower.finish

def afterDemands (p : Program) (s : State) (ds : List Demand) : State :=
  ds.foldl (fun s d => ((d.action p).run s).2) s

section
variable {p : Program} {o : Options} {R : Room p} {s t : State}

theorem Demand.steady (d : Demand) : Steady p true R s (d.action p) := by
  cases d with
  | generate file => exact generate_steady
  | finish => exact finish_steady

theorem grows_afterDemands (ds : List Demand) : s.Grows p true (afterDemands p s ds) := by
  induction ds generalizing s with
  | nil => exact .refl s
  | cons d ds ih => exact (d.steady (R := .never)).grows.trans ih

theorem initial_listed (o : Options) : (State.initial o).tables.Listed p o.entry where
  funcs := rfl
  names := rfl
  funcsOnce := List.nodup_nil
  funcsMade e he := by cases he
  defined := rfl
  records := List.Perm.refl _
  recordsOnce := List.nodup_nil
  recordsMade e he := by cases he
  string r hr := by cases hr

/-! ## Requests for what is there -/

theorem run_emitTo_known {depth : Nat} {d : Place} {owner? : Option TypeId}
    {args : List (Option TypeId)} {name : String}
    {f : FuncId} (hd : d.node.functionLike?.isSome) (hname : p.mangledFunction d owner? = .ok name)
    (hf : s.funcs.lookup name = some f) :
    (Lower.emitTo p (depth + 1) d owner? args).run s = (.ok f, s) := by
  obtain ⟨function, hfunction⟩ := Option.isSome_iff_exists.1 hd
  unfold Lower.emitTo
  rw [hfunction]
  dsimp only
  rw [hname, Lower.ofExcept, pure_bind, run_get_bind, hf]
  rfl

theorem run_recordTo_known {depth : Nat} {u : TypeId} {isOpaque : Bool} {name : String}
    {r : RecordId} (hname : p.mangledType u = some name) (hr : s.typeDefs.lookup name = some r) :
    (Lower.recordTo p (depth + 1) u isOpaque).run s = (.ok r, s) := by
  unfold Lower.recordTo
  rw [hname, Lower.answered, pure_bind, run_get_bind, hr]
  rfl

theorem run_builtin_known {name : String} {f : FuncId} (hf : s.funcs.lookup name = some f) :
    (Lower.builtin name).run s = (.ok f, s) := by
  unfold Lower.builtin
  rw [run_get_bind, hf]
  rfl

/-- Whatever asks in state `t` for something that was there in state `s` gets it, and nothing else
happens, however deep the request is nested. -/
structure AnswersKnown (p : Program) (s t : State) : Prop where
  emission : ∀ name f, s.funcs.lookup name = some f →
    ∀ depth d owner? args, d.node.functionLike?.isSome →
    p.mangledFunction d owner? = .ok name →
      (Lower.emitTo p (depth + 1) d owner? args).run t = (.ok f, t)
  builtin : ∀ name f, s.funcs.lookup name = some f → (Lower.builtin name).run t = (.ok f, t)
  record : ∀ name r, s.typeDefs.lookup name = some r →
    ∀ depth u isOpaque, p.mangledType u = some name →
    (Lower.recordTo p (depth + 1) u isOpaque).run t = (.ok r, t)

theorem Tables.Extends.answersKnown (h : s.tables.Extends t.tables) : AnswersKnown p s t where
  emission _ _ hf _ _ _ _ hd hname := run_emitTo_known hd hname (lookup_grown h.funcs hf)
  builtin _ _ hf := run_builtin_known (lookup_grown h.funcs hf)
  record _ _ hr _ _ _ hname := run_recordTo_known hname (lookup_grown h.typeDefs hr)

end

/-- **The tables always list the module.** After any demands, met or not, the module has the entry
function and then exactly the functions of the table, each once and named by its key, and it defines
exactly the records of the table, each once and named by its key, and the string record if there is
one. Whatever is demanded afterwards only adds to the ends, so keys keep what they stand for; and as
long as nothing is taken back, a request for a key gets what it stands for, and nothing is emitted
for it. -/
theorem session_listed (p : Program) (o : Options) (before after : List Demand) :
    let s := afterDemands p (State.initial o) before
    let t := afterDemands p s after
    s.tables.Listed p o.entry ∧ s.tables.Extends t.tables ∧
      ∀ u : State, s.tables.Extends u.tables → AnswersKnown p s u :=
  ⟨(initial_listed o).grown (grows_afterDemands before).tables,
    (grows_afterDemands after).tables.extends, fun _ hu => hu.answersKnown⟩

def bodyProgram (st : Stmt) : Program :=
  let f : SymbolId := ⟨"f"⟩
  let decl : Stmt :=
    .function { NodeInfo.blank with declares? := some f } "f" [] (some (.mk .blank [st]))
  let call : Expr := .call .blank (.ident { NodeInfo.blank with symbol? := some f } "f") []
  ⟨[⟨.blank, "sample", [decl, .expression .blank call]⟩], intrinsics, [(f, ⟨"f", [.func]⟩)]⟩

/-- A function whose body could not be lowered is in the module all the same, and is not emitted
again. -/
theorem session_refused :
    ∃ p s f, s = afterDemands p (State.initial defaultOptions) (p.files.map .generate) ∧
    ((p.files.forM (Lower.generate p)).run (State.initial defaultOptions)).1.isOk = false ∧
    s.funcs.lookup "f" = some f ∧ AnswersKnown p s s := by
  let p := bodyProgram (.expression .blank (.ident .blank "x"))
  have hf : ((afterDemands p (State.initial defaultOptions) (p.files.map .generate)).funcs.lookup
      "f").isSome = true := by
    decide +kernel
  obtain ⟨f, hf⟩ := Option.isSome_iff_exists.1 hf
  exact ⟨p, _, f,
    rfl, by decide +kernel, hf,
    (session_listed p defaultOptions (p.files.map .generate) []).2.2 _ (.refl _)⟩

/-! ## Sessions end -/

def functionKeys (p : Program) : List String := p.emissionNames ++ Builtin.all.map Builtin.name

def recordKeys (p : Program) : List String := strangeTypeName :: p.recordNames

theorem Tables.Listed.funcs_subset {p : Program} {entry : String} {T : Tables}
    (h : T.Listed p entry) : T.funcs.map Prod.fst ⊆ functionKeys p := by
  intro name hname
  obtain ⟨e, he, rfl⟩ := List.mem_map.1 hname
  rcases h.funcsMade e he with ⟨r, -, hr⟩ | hb
  · exact List.mem_append_left _ (mem_emissionNames hr.requested.mem_places hr.mangled)
  · obtain ⟨b, hb⟩ := Option.isSome_iff_exists.1 hb
    exact List.mem_append_right _ (List.mem_map.2 ⟨b, List.mem_of_find?_eq_some hb, find?_name hb⟩)

theorem Tables.Listed.typeDefs_subset {p : Program} {entry : String} {T : Tables}
    (h : T.Listed p entry) : T.typeDefs.map Prod.fst ⊆ recordKeys p := by
  intro name hname
  obtain ⟨e, he, rfl⟩ := List.mem_map.1 hname
  obtain ⟨-, u, -, hu⟩ := h.recordsMade e he
  by_cases hmem : u ∈ p.typeIds
  · exact List.mem_cons_of_mem _ (mem_recordNames hmem hu)
  · rw [mangledType_of_not_mem hmem] at hu
    exact Option.some.inj hu ▸ List.mem_cons_self

theorem run_ne_exhausted_forM {p : Program} (h : p.IsAcyclic) (s : State) :
    ((p.files.forM (Lower.generate p)).run s).1 ≠ .error .exhausted :=
  have hsteady :
      Steady p true (.emissions p (Lower.emissionBound p)) s (p.files.forM (Lower.generate p)) :=
    .forM fun _ _ _ => generate_steady
  hsteady.ne_exhausted (Room.emissions_holds h s.tables)

/-- **Every demand ends.** If the types of a program do not lead back to themselves, lowering its
files does not use up the bound on nested emissions, any greater bound gives the same, and no demand
afterwards uses it up either. In whatever state, an emission or a record is begun only under a name
that its table does not have; each name is entered once, and only finitely many names can be. -/
theorem session_ends {p : Program} (h : p.IsAcyclic) (o : Options) :
    ((p.files.forM (Lower.generate p)).run (State.initial o)).1 ≠ .error .exhausted ∧
    (∀ bound, Lower.emissionBound p ≤ bound →
      (p.files.forM (generateTo p bound)).run (State.initial o) =
      (p.files.forM (Lower.generate p)).run (State.initial o)) ∧
    (∀ ds : List Demand,
      let s := afterDemands p (State.initial o) ds
      (∀ d : Demand, ((d.action p).run s).1 ≠ .error .exhausted) ∧
      (s.funcs.map Prod.fst).Nodup ∧ s.funcs.map Prod.fst ⊆ functionKeys p ∧
      (s.typeDefs.map Prod.fst).Nodup ∧ s.typeDefs.map Prod.fst ⊆ recordKeys p) ∧
    ∀ u : State, AnswersKnown p u u := by
  refine ⟨run_ne_exhausted_forM h _, fun bound hbound => (run_generateTo h hbound _).symm,
    fun ds => ?_, fun u => (Tables.Extends.refl _).answersKnown⟩
  have hlisted : (afterDemands p (State.initial o) ds).tables.Listed p o.entry :=
    (initial_listed o).grown (grows_afterDemands ds).tables
  exact ⟨fun d => d.steady.ne_exhausted (Room.emissions_holds h _), hlisted.funcsOnce,
    hlisted.funcs_subset, hlisted.recordsOnce, hlisted.typeDefs_subset⟩

/-- A program with a function that calls itself, and a class with a type argument that has a
property of its own type and whose constructor calls the function. -/
def loopingProgram : Program :=
  let node : TypeId := ⟨"node"⟩
  let class_ : SymbolId := ⟨"Node"⟩
  let next : SymbolId := ⟨"next"⟩
  let loop : SymbolId := ⟨"loop"⟩
  let call : Expr := .call .blank (.ident { NodeInfo.blank with symbol? := some loop } "loop") []
  let decl : Stmt := .function { NodeInfo.blank with declares? := some loop } "loop" []
    (some (.mk .blank [.expression .blank call]))
  let members : List Member :=
    [.property { NodeInfo.blank with declares? := some next, type? := some node } "next" false none,
      .constructor .blank [] (some (.mk .blank [.expression .blank call]))]
  let new : Expr := .construct { NodeInfo.blank with type? := some node }
    (.ident { NodeInfo.blank with symbol? := some class_ } "Node") []
  ⟨[⟨.blank, "sample",
    [decl, .classDecl { NodeInfo.blank with declares? := some class_ } "Node" ["T"] false members,
      .expression .blank new]⟩],
    intrinsics ++ [(node, ⟨[.object], "", some class_, [numberType], [next], none, none, none⟩)],
    [(loop, ⟨"loop", [.func]⟩), (class_, ⟨"Node", [.cls]⟩), (next, ⟨"next", [.prop]⟩)]⟩

theorem session_ends_looping : loopingProgram.IsAcyclic ∧
    ((loopingProgram.files.forM (Lower.generate loopingProgram)).run
      (State.initial defaultOptions)).1 ≠ .error .exhausted ∧
    ∃ s, Compiles loopingProgram defaultOptions s ∧
      s.funcs.map Prod.fst = ["Node__number__constructor", "gc_allocate", "loop"] ∧
      s.typeDefs.map Prod.fst = ["Node__number"] := by
  have hacyclic : loopingProgram.IsAcyclic :=
    isAcyclic_of_rank (fun t => if t.key = "node" then 1 else 0) (by decide +kernel)
  have hs := compiles_finalState (p := loopingProgram) (o := defaultOptions) (by decide +kernel)
  exact ⟨hacyclic, (session_ends hacyclic defaultOptions).1, _,
    hs, by decide +kernel, by decide +kernel⟩

end CheckedIR.Lowering
