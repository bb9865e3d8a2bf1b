import CheckedIR.Proofs.Lowering.Gives
import CheckedIR.Proofs.Meaning.StmtSound
import Mathlib.Data.List.Nodup

/-!
# What the code of functions computes

A call runs the stack slots first, which gives every slot a cell of its own, and then the code of
the body. By induction on how deep calls nest, every call does what the called declaration means; so
the entry function leaves operands that stand for the values of the top-level variables.
-/

namespace CheckedIR.Meaning

open CheckedIR.Ir CheckedIR.Program CheckedIR.Lowering

variable {F : Type} {N : Arithmetic F} {p : Program} {V : List String} {z y : State} {f : FuncId}
  {args : List (Word F)}

/-! ## Stack slots -/

theorem Settled.checked (hy : Settled y) {fn : Func} {b : Ir.Block}
    (hf : y.module.func? f = some fn) (hb : fn.IsBody b) : IsChecked y.module b.code ∧
      ∀ t, b.term? = some t → y.module.returnDefect? fn.returns t = none := by
  obtain ⟨t, ht, hops, hreturn⟩ :=
    Module.block_accepted hy.verified hf (b := b) (by simp [show fn.blocks = [b] from hb])
  refine ⟨fun x hx => ?_, fun t' ht' => ?_⟩
  · obtain ⟨i, hi, rfl⟩ := List.mem_map.1 hx
    exact hops i hi
  · obtain rfl := Option.some.inj (ht.symm.trans ht')
    exact hreturn

/-! ## Calls -/

theorem eq_void_of_isMatch {rs : Records} {t : Ty} (h : t.isMatch rs .void = true) : t = .void := by
  unfold Ty.isMatch at h
  cases t <;> simp_all [Ty.matchesWith]

theorem Settled.body (hy : Settled y) {fn : Func} {b : Ir.Block} (hf : y.module.func? f = some fn)
    (hb : fn.IsBody b) : b.ids.Nodup := by
  rcases (hy.sound.funcs f fn hf).blocks with hnil | ⟨b', hb', hs⟩
  · rw [show fn.blocks = [b] from hb] at hnil
    cases hnil
  · obtain rfl : b = b' := by simpa using (show fn.blocks = [b] from hb).symm.trans hb'
    exact hs.nodup

structure Current (N : Arithmetic F) (y : State) (t : Machine F) (V : List String)
    (globals : Valuation F) : Prop where
  names : globals.map Prod.fst = V
  stand : ∀ name d, globals.lookup name = some d → ∃ v, globalOf y name = some v ∧
    Denotes N Lower.entryFunc [] t v d

variable {t : Machine F} {globals : Valuation F} {cells : List Nat} {P : Piece}

theorem Current.nil : Current N y t [] [] where
  names := rfl
  stand name d hd := by simp at hd

theorem Current.mono {u : Machine F} (hl : Later t u) (h : Current N y t V globals) :
    Current N y u V globals where
  names := h.names
  stand name d hd := by
    obtain ⟨v, hv, hden⟩ := h.stand name d hd
    exact ⟨v, hv, hden.mono hl⟩

theorem Current.declare {name : String} {a : Value} {d : Datum F} (h : Current N y t V globals)
    (ha : globalOf y name = some a) (hd : Denotes N Lower.entryFunc [] t a d) :
    Current N y t (name :: V) ((name, d) :: globals) where
  names := by rw [List.map_cons, h.names]
  stand n x hx := by
    rw [List.lookup_cons] at hx
    split at hx
    · rename_i he
      rw [eq_of_beq he]
      cases hx
      exact ⟨a, ha, hd⟩
    · exact h.stand n x hx

theorem lookup_isSome {name : String} (h : name ∈ globals.map Prod.fst) :
    (globals.lookup name).isSome = true := by
  obtain ⟨⟨n, d⟩, hmem, rfl⟩ := List.mem_map.1 h
  rw [List.lookup_isSome_iff]
  exact ⟨(n, d), hmem, by simp⟩

theorem Current.related (h : Current N y t V globals) (hz : Stage p V z y) :
    Related N p z y Lower.entryFunc [] t (fun _ => none) [] globals where
  bound _ _ hd := by cases hd
  unbound _ _ := rfl
  global name d hd := by
    obtain ⟨v, hv, hden⟩ := h.stand name d hd
    exact ⟨v, hv, hden.isUsable, fun _ => hden⟩
  covers name v hv := (hz.names name v hv).imp_left fun hmem => lookup_isSome (h.names ▸ hmem)

end CheckedIR.Meaning
