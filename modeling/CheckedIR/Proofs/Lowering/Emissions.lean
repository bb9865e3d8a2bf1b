import CheckedIR.Proofs.Lowering.Allocations

/-!
# Emissions

What a function is emitted from fits the request that it is for: the receiver is an object of the
owner, and the parameters have the names of the declaration.
-/

namespace CheckedIR.Lowering

open CheckedIR.Ir CheckedIR.Program

section
variable {p : Program} {s : State}

/-- Record `r` is that of the objects of an owner type, or of strings. -/
def IsReceiver (p : Program) (owner : TypeId) (r : RecordId) (s : State) : Prop :=
  HasRecord p owner r s ∨ s.stringRecord? = some r

theorem IsReceiver.mono {t : State} {owner : TypeId} {r : RecordId} (hc : Changes p s t)
    (h : IsReceiver p owner r s) : IsReceiver p owner r t :=
  h.imp (fun h => h.mono hc) (hc.remembers.stringRecord r)

def ReceiverFits (m : Module) (t? : Option Ty) : Prop := ∀ t, t? = some t → ∃ r, t = .record r ∧
    r < m.records.length

theorem ReceiverFits.mono {m m' : Module} {t? : Option Ty} (hg : m.Grows m')
    (h : ReceiverFits m t?) : ReceiverFits m' t? := by
  intro t ht
  obtain ⟨r, hr, hlt⟩ := h t ht
  exact ⟨r, hr, Nat.lt_of_lt_of_le hlt hg.records.length_le⟩

theorem ReceiverFits.held {m : Module} {t? : Option Ty} {t : Ty} (h : ReceiverFits m t?)
    (ht : t? = some t) : t.IsHeld m.records := by
  obtain ⟨r, rfl, hlt⟩ := h t ht
  exact hlt

structure Emission.Fits (p : Program) (e : Emission) (s : State) : Prop where
  requested : Requested p ⟨e.decl, e.owner?⟩
  function : e.decl.node.functionLike? = some e.function
  mangled : p.mangledFunction e.decl e.owner? = .ok e.name
  receiver : ReceiverFits s.module e.receiver?
  owner : e.decl.isMember = true → ∀ owner r, e.owner? = some owner →
    e.receiver? = some (.record r) → IsReceiver p owner r s
  names : ∀ n ∈ e.names, n ≠ "" → p.Mentions n

theorem Emission.Fits.mono {e : Emission} {t : State} (hc : Changes p s t) (h : e.Fits p s) :
    e.Fits p t :=
  { h with
    receiver := h.receiver.mono hc.grows
    owner := fun hm owner r ho hr => (h.owner hm owner r ho hr).mono hc }

def AreNamed (names : List String) (params : List Ir.Param) : Prop :=
  params.map Ir.Param.name = names.take params.length ++
    List.replicate (params.length - names.length) ""

theorem AreNamed.names_nil {params : List Ir.Param} (h : AreNamed [] params) :
    Ir.Param.names params = [] := by
  unfold Ir.Param.names
  rw [h]
  simp

theorem AreNamed.tail {name : String} {names : List String} {q : Ir.Param} {params : List Ir.Param}
    (h : AreNamed (name :: names) (q :: params)) : q.name = name ∧ AreNamed names params := by
  simpa [AreNamed] using h

end

end CheckedIR.Lowering
