import Mathlib.Data.List.Dedup
import Mathlib.Data.List.Perm.Subperm
import Scriptlet.Proofs.Operand
import Scriptlet.Proofs.Walk.Discipline
/-!
# What a walk can write

Which variables a walk can write is seen in its tokens: only those that stand right before `=` or `++`, since an
operand is still a variable only as long as nothing but its own token has been passed.  And `++` writes only what is
bound already, so only `=` binds.  Both are a discipline (`framing`), which bounds every walk, however many rounds its
loops take, at every point where it may stop.
-/
namespace Scriptlet

open Course (Ensures)

/-- The variable stands somewhere right before the token. -/
def StandsBefore (tokens : List Token) (name : String) (t : Token) : Prop :=
  ∃ k, tokens[k]? = some (.var name) ∧ tokens[k + 1]? = some t

/-- The names that stand right before an `=`, each once. -/
def assignedNames (tokens : List Token) : List String :=
  ((tokens.zip tokens.tail).filterMap fun
    | (.var name, .assign) => some name
    | _ => none).dedup

theorem mem_assignedNames {tokens : List Token} {name : String} :
    name ∈ assignedNames tokens ↔ StandsBefore tokens name .assign := by
  have hpair : ∀ p : Token × Token,
      (match p with
        | (.var name, .assign) => some name
        | _ => none) = some name ↔ p = (.var name, .assign) := by
    rintro ⟨t, u⟩
    cases t <;> cases u <;> simp
  rw [assignedNames, List.mem_dedup, List.mem_filterMap]
  constructor
  · rintro ⟨p, hmem, hp⟩
    cases (hpair p).1 hp
    obtain ⟨k, hk⟩ := List.mem_iff_getElem?.1 hmem
    obtain ⟨hvar, hassign⟩ := List.getElem?_zip_eq_some.1 hk
    exact ⟨k, hvar, by rwa [List.getElem?_tail] at hassign⟩
  · rintro ⟨k, hvar, hassign⟩
    refine ⟨(.var name, .assign), List.mem_iff_getElem?.2 ⟨k, ?_⟩, rfl⟩
    exact List.getElem?_zip_eq_some.2 ⟨hvar, by rwa [List.getElem?_tail]⟩

/-! ## Stores and what was written to them -/

namespace Store

variable {ι : Type}

/-- `after` comes of `before` by writes that the tokens allow. -/
structure Framed (tokens : List Token) (before after : Store ι) : Prop where
  /-- Only what stands before `=` or `++` changes. -/
  kept : ∀ name, after.get? name = before.get? name ∨
    StandsBefore tokens name .assign ∨ StandsBefore tokens name .increment
  /-- Only what stands before `=` is bound anew. -/
  bound : ∀ name, before.get? name = none → after.get? name = none ∨ StandsBefore tokens name .assign
  /-- No binding is removed. -/
  remains : ∀ name, (before.get? name).isSome → (after.get? name).isSome

variable {tokens : List Token} {before after : Store ι}

theorem Framed.refl (tokens : List Token) (s : Store ι) : Framed tokens s s :=
  ⟨fun _ => .inl rfl, fun _ h => .inl h, fun _ h => h⟩

theorem Framed.trans {s : Store ι} (h : Framed tokens before after) (h' : Framed tokens after s) :
    Framed tokens before s := by
  refine ⟨fun name => ?_, fun name hnone => ?_, fun name hsome => h'.remains name (h.remains name hsome)⟩
  · rcases h'.kept name with heq | hstands
    · rw [heq]
      exact h.kept name
    · exact .inr hstands
  · rcases h.bound name hnone with hnone' | hstands
    · exact h'.bound name hnone'
    · exact .inr hstands

/-- What a write may do: `=` writes anything, and `++` what is bound. -/
theorem framed_set {name : String} {s : Store ι}
    (h : StandsBefore tokens name .assign ∨ StandsBefore tokens name .increment ∧ (s.get? name).isSome)
    (v : Value ι) : Framed tokens s (s.set name v) := by
  refine ⟨fun other => ?_, fun other hnone => ?_, fun other hsome => ?_⟩ <;> rw [get?_set] <;> split
  · rename_i hother
    exact .inr (hother ▸ h.imp_right And.left)
  · exact .inl rfl
  · rename_i hother
    rcases h with hassign | ⟨-, hsome⟩
    · exact .inr (hother ▸ hassign)
    · rw [← hother, hnone] at hsome
      cases hsome
  · exact .inl hnone
  · rfl
  · exact hsome

theorem length_keys (s : Store ι) : (s.bindings.map Prod.fst).length = s.size := List.length_map _

/-- The names of the one store are among those of the other and some more. -/
theorem size_le_of_keys {s s' : Store ι} {names : List String}
    (h : ∀ name, (s.get? name).isSome → (s'.get? name).isSome ∨ name ∈ names) :
    s.size ≤ s'.size + names.length := by
  have hsubset : s.bindings.map Prod.fst ⊆ s'.bindings.map Prod.fst ++ names := by
    intro name hname
    rw [List.mem_append, mem_keys_iff]
    exact h name ((s.mem_keys_iff name).1 hname)
  have hle := (List.subperm_of_subset s.distinct hsubset).length_le
  rwa [List.length_append, length_keys, length_keys] at hle

theorem Framed.size_le (h : Framed tokens before after) : before.size ≤ after.size := by
  have hle : before.size ≤ after.size + ([] : List String).length :=
    size_le_of_keys fun name hname => .inl (h.remains name hname)
  exact hle

theorem Framed.growth (h : Framed tokens before after) :
    after.size ≤ before.size + (assignedNames tokens).length := by
  refine size_le_of_keys fun name hname => ?_
  cases hbefore : before.get? name with
  | some v => exact .inl rfl
  | none =>
    rcases h.bound name hbefore with hnone | hstands
    · rw [hnone] at hname
      cases hname
    · exact .inr (mem_assignedNames.2 hstands)

end Store

/-! ## The discipline -/

variable {ι : Type}

/-- A variable that its own token was passed last. -/
def Operand.JustPassed (tokens : List Token) (c : Cursor) : Operand ι → Prop
  | value _ => True
  | var name _ => ∃ k, c.position = k + 1 ∧ tokens[k]? = some (.var name)

theorem Operand.JustPassed.standsBefore {tokens : List Token} {c : Cursor} {name : String} {p : Nat} {t : Token}
    (h : (Operand.var name p : Operand ι).JustPassed tokens c) (hc : c = .atIndex tokens c.position)
    (ht : c.current? = some t) : StandsBefore tokens name t := by
  obtain ⟨k, hk, hvar⟩ := h
  refine ⟨k, hvar, ?_⟩
  rwa [hc, Cursor.current?_atIndex, hk] at ht

namespace Act

variable {α : Type} {tokens : List Token}

/-- An act that changes the store only as the tokens allow. -/
def Frames (tokens : List Token) (a : Act ι α) : Prop := ∀ w : World ι, w.store.Framed tokens (a.runOn w).2.store

theorem Idle.frames {a : Act ι α} (h : Idle a) : Frames tokens a := by
  intro w
  rw [h w]
  exact .refl tokens w.store

theorem frames_emit (text : String) : Frames tokens (emit text : Act ι Unit) := by
  intro w
  rw [runOn_emit]
  exact .refl tokens w.store

theorem Frames.obeys {place : Cursor → Prop} {before : Store ι} {a : Act ι α} (h : Frames tokens a) :
    a.Obeys place (fun w => before.Framed tokens w.store) (fun _ m => before.Framed tokens m.store)
      fun _ => True := by
  intro w hw
  have hafter := hw.trans (h w)
  generalize a.runOn w = x at hafter
  obtain ⟨r, w'⟩ := x
  cases r with
  | ok v => exact ⟨trivial, hafter⟩
  | error e => exact fun _ _ => hafter

end Act

variable [Integers ι]

theorem Operand.justPassed_ofToken? {tokens : List Token} {c : Cursor} {t : Token} {o : Operand ι}
    (hc : c = .atIndex tokens c.position) (ht : c.current? = some t) (ho : ofToken? c.position t = some o) :
    o.JustPassed tokens c.advance := by
  rw [hc, Cursor.current?_atIndex] at ht
  cases t <;> cases ho
  · exact trivial
  · exact trivial
  · exact ⟨c.position, rfl, ht⟩

theorem Operand.JustPassed.frames_increment {tokens : List Token} {c : Cursor} {o : Operand ι}
    (h : o.JustPassed tokens c) (hc : c = .atIndex tokens c.position) (ht : c.current? = some .increment) :
    Act.Frames tokens (o.increment c.position) := by
  intro w
  rcases o.increment_cases c.position w with ⟨e, he⟩ | ⟨name, p, n, next, rfl, hname, -, hrun⟩
  · rw [he]
    exact .refl tokens w.store
  · rw [hrun]
    exact Store.framed_set (.inr ⟨h.standsBefore hc ht, by rw [hname]; rfl⟩) _

theorem Operand.JustPassed.frames_apply {tokens : List Token} {c : Cursor} {left : Operand ι} {op : BinaryOp}
    (h : left.JustPassed tokens c) (hc : c = .atIndex tokens c.position)
    (ht : c.current? = some (Operator.binary op).token) (right : Operand ι) :
    Act.Frames tokens (left.apply op c.position right) := by
  intro w
  rcases left.apply_cases op c.position right w with hw | ⟨name, p, v, rfl, rfl, -, hrun⟩
  · rw [hw]
    exact .refl tokens w.store
  · rw [hrun]
    exact Store.framed_set (.inl (h.standsBefore hc ht)) v

/-- A walk over `tokens` changes the store `before` only as they allow. -/
def framing (tokens : List Token) (before : Store ι) : Discipline ι where
  place c := c = .atIndex tokens c.position
  world w := before.Framed tokens w.store
  operand c o := o.JustPassed tokens c
  value _ := True
  stop _ m := before.Framed tokens m.store
  advance hc _ := Cursor.advance_eq_atIndex hc
  operand_term := Operand.justPassed_ofToken?
  operand_value _ := trivial
  resolve _ := (Operand.idle_resolve _).frames.obeys
  increment hc ht ho := (ho.frames_increment hc ht).obeys
  apply hc ht hleft _ := (hleft.frames_apply hc ht _).obeys
  emit _ := (Act.frames_emit _).obeys
  flush := Act.idle_flush.frames.obeys
  unexpected _ _ hw := hw
  exhausted _ hw := hw

/-! ## Every walk -/

/-- Where a walk that keeps the discipline stands after any run. -/
theorem framed_of_keeps {α : Type} {tokens : List Token} {index : Nat} {world : World ι} {w : Walk ι α}
    {V : α → Prop} (h : (framing tokens world.store).Keeps w V) :
    world.store.Framed tokens (w.runOn ⟨.atIndex tokens index, world⟩).2.store := by
  have hstart : (framing tokens world.store).Kept ⟨.atIndex tokens index, world⟩ := ⟨rfl, .refl tokens world.store⟩
  cases hrun : w.runOn ⟨.atIndex tokens index, world⟩ with
  | mk r after =>
    cases r with
    | ok a => exact (h.ok hstart hrun).2.2
    | error e => exact h.stop hstart hrun

/-- What the tokens of a run say of the store that it leaves, and of its size. -/
structure WritesAsSeen (tokens : List Token) (before after : Store ι) : Prop extends before.Framed tokens after where
  size_le : before.size ≤ after.size
  growth : after.size ≤ before.size + (assignedNames tokens).length

omit [Integers ι] in
theorem Store.Framed.writesAsSeen {tokens : List Token} {before after : Store ι} (h : before.Framed tokens after) :
    WritesAsSeen tokens before after :=
  ⟨h, h.size_le, h.growth⟩

/-- **What a run can write is seen in its tokens.**  From any place of any tokens and with any amount of fuel, so at
every end of the run and at every point where it may be cut off: statements and whole programs change only variables
that stand before `=` or `++`, bind only those that stand before `=`, and remove no binding, so the store grows by at
most as many bindings as there are such names. -/
theorem walk_writes_as_seen (tokens : List Token) (index fuel : Nat) (active : Bool) (world : World ι) :
    WritesAsSeen tokens world.store ((Walk.statements fuel active).runOn ⟨.atIndex tokens index, world⟩).2.store ∧
    WritesAsSeen tokens world.store ((Walk.program fuel).runOn ⟨.atIndex tokens index, world⟩).2.store :=
  ⟨(framed_of_keeps (Discipline.keeps_statements fuel active)).writesAsSeen,
    (framed_of_keeps (Discipline.keeps_program fuel)).writesAsSeen⟩

end Scriptlet
