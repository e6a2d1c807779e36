import Toolwright.Proofs.Declaration.Later
import Toolwright.Session.Steps

/-!
# Data that is given

A value that is written in a step is plain data once it is built: its containers are new cells that
hold plain data again, and no container is left in it that would get another cell.
-/

namespace Toolwright

set_option autoImplicit false

/-- A value without containers that would get a cell of their own. -/
def Value.IsShared (x : Value) : Prop := Run.share x = pure x

namespace Run

mutual

theorem isShared_share {x y : Value} {w v : World} (h : (share x).exec w = (.ok y, v)) :
    y.IsShared := by
  cases x with
  | list xs | set xs | dict xs =>
    obtain ⟨_, _, _, h⟩ := of_exec_bind h
    cases h
    rfl
  | tuple xs =>
    obtain ⟨ys, u, hys, h⟩ := of_exec_bind h
    cases h
    unfold Value.IsShared
    rw [share, isShared_shareItems hys]
    rfl
  | mapping rows =>
    obtain ⟨ys, u, hys, h⟩ := of_exec_bind h
    cases h
    unfold Value.IsShared
    rw [share, isShared_shareRows hys]
    rfl
  | record shape fields =>
    obtain ⟨_, _, _, h⟩ := of_exec_bind h
    obtain ⟨_, _, _, h⟩ := of_exec_bind h
    cases h
    rfl
  | _ =>
    cases h
    rfl

theorem isShared_shareItems {xs ys : List Value} {w v : World}
    (h : (shareItems xs).exec w = (.ok ys, v)) : shareItems ys = pure ys := by
  cases xs with
  | nil =>
    cases h
    rfl
  | cons x xs =>
    obtain ⟨y, u, hy, h⟩ := of_exec_bind h
    obtain ⟨rest, t, hrest, h⟩ := of_exec_bind h
    cases h
    rw [shareItems, isShared_share hy, isShared_shareItems hrest]
    rfl

theorem isShared_shareRows {rows others : List (Value × Value)} {w v : World}
    (h : (shareRows rows).exec w = (.ok others, v)) : shareRows others = pure others := by
  cases rows with
  | nil =>
    cases h
    rfl
  | cons row rows =>
    obtain ⟨k, x⟩ := row
    obtain ⟨y, u, hy, h⟩ := of_exec_bind h
    obtain ⟨rest, t, hrest, h⟩ := of_exec_bind h
    cases h
    rw [shareRows, isShared_share hy, isShared_shareRows hrest]
    rfl

end

theorem isShared_literal {l : Literal} {x : Value} {w v : World}
    (h : (literal l).exec w = (.ok x, v)) : x.IsShared := by
  obtain ⟨_, _, _, h⟩ := of_exec_bind h
  exact isShared_share h

theorem isShared_rows {rows named : Named} {w v : World}
    (h : (rows.mapM fun (row : String × Value) => do return (row.1, ← share row.2)).exec w =
      (.ok named, v)) :
    Table.keys named = Table.keys rows ∧ ∀ row ∈ named, row.2.IsShared := by
  induction rows generalizing w named with
  | nil =>
    cases h
    exact ⟨rfl, by simp⟩
  | cons row rows ih =>
    rw [List.mapM_cons] at h
    obtain ⟨given, _, hrow, h⟩ := of_exec_bind h
    obtain ⟨rest, _, hrest, h⟩ := of_exec_bind h
    obtain ⟨x, _, hx, hrow⟩ := of_exec_bind hrow
    cases hrow
    cases h
    obtain ⟨hkeys, hshared⟩ := ih hrest
    refine ⟨congrArg (row.1 :: ·) hkeys, ?_⟩
    rintro _ (_ | ⟨_, hm⟩)
    · exact isShared_share hx
    · exact hshared _ hm

theorem forall₂_mapM {α β : Type} {f : α → Run β} {xs : List α} {ys : List β} {w v : World}
    (h : (xs.mapM f).exec w = (.ok ys, v)) :
    List.Forall₂ (fun x y => ∃ u u', (f x).exec u = (.ok y, u')) xs ys := by
  induction xs generalizing w ys with
  | nil =>
    cases h
    exact .nil
  | cons x xs ih =>
    rw [List.mapM_cons] at h
    obtain ⟨y, u, hy, h⟩ := of_exec_bind h
    obtain ⟨rest, u', hrest, h⟩ := of_exec_bind h
    cases h
    exact .cons ⟨w, u, hy⟩ (ih hrest)

end Run

/-! ## Nothing is logged -/

namespace Run

def Silent {α : Type} (r : Run α) : Prop := ∀ w, (r.exec w).2.log = w.log

section Silent

variable {α β : Type}

theorem Silent.pure (a : α) : Silent (Pure.pure a : Run α) := fun _ => rfl

theorem Silent.bind {r : Run α} {k : α → Run β} (h : Silent r) (hk : ∀ a, Silent (k a)) :
    Silent (r >>= k) := by
  intro w
  have hr := h w
  rw [exec_bind]
  generalize r.exec w = x at hr
  obtain ⟨result, v⟩ := x
  cases result with
  | ok a => exact (hk a v).trans hr
  | error f => exact hr

theorem Silent.mapM {f : α → Run β} (h : ∀ a, Silent (f a)) (xs : List α) : Silent (xs.mapM f) := by
  induction xs with
  | nil => exact .pure []
  | cons x xs ih =>
    rw [List.mapM_cons]
    exact (h x).bind fun _ => ih.bind fun _ => .pure _

theorem silent_build (b : Build α) : Silent (build b) := by
  intro w
  unfold build
  rw [exec_bind, exec_world]
  dsimp only
  rw [exec_bind, exec_lift]
  cases b.run w.marks <;> rfl

theorem silent_kept (x : Value) : Silent (kept x) := fun _ => rfl

mutual

theorem silent_share (x : Value) : Silent (share x) := by
  cases x with
  | list xs | set xs => exact (silent_shareItems xs).bind fun _ => silent_kept _
  | dict rows => exact (silent_shareRows rows).bind fun _ => silent_kept _
  | tuple xs => exact (silent_shareItems xs).bind fun _ => .pure _
  | mapping rows => exact (silent_shareRows rows).bind fun _ => .pure _
  | record shape fields => exact (silent_shareItems fields).bind fun _ _ => rfl
  | _ => exact .pure _

theorem silent_shareItems (xs : List Value) : Silent (shareItems xs) := by
  cases xs with
  | nil => exact .pure []
  | cons x xs => exact (silent_share x).bind fun _ => (silent_shareItems xs).bind fun _ => .pure _

theorem silent_shareRows (rows : List (Value × Value)) : Silent (shareRows rows) := by
  cases rows with
  | nil => exact .pure []
  | cons row rows =>
    exact (silent_share row.2).bind fun _ => (silent_shareRows rows).bind fun _ => .pure _

end

theorem silent_literal (l : Literal) : Silent (literal l) :=
  (silent_build _).bind silent_share

theorem silent_draftFields (draft : ParamDraft) : Silent (Machine.draftFields draft) :=
  (silent_build _).bind fun _ =>
    .mapM (fun (row : String × Value) => (silent_share row.2).bind fun _ => .pure _) _

end Silent

end Run

/-! ## Parameters that are written -/

def ParamSpec.values (p : ParamSpec) : List Value :=
  [p.name, p.type, p.description, p.required, p.default]

/-- What is set on a parameter. -/
def ParamSpec.fields (p : ParamSpec) : Named := Shape.paramSpec.fields.zip p.values

/-- Rows under the names of the fields are the fields of a parameter. -/
theorem ParamSpec.exists_fields {named : Named} (h : Table.keys named = Shape.paramSpec.fields) :
    ∃ p : ParamSpec, named = p.fields := by
  match named, h with
  | [(_, a), (_, b), (_, c), (_, d), (_, e)], h =>
    cases h
    exact ⟨⟨a, b, c, d, e⟩, rfl⟩

section Agreement

open Build

variable {ρ : Renaming} {e : Extent}

theorem ParamDraft.build_agree (draft : ParamDraft) (low : Nat) :
    Agree ρ low (fun k p p' => Named.Within (e.upTo k) p.fields ∧
      p'.fields = Named.rename ρ p.fields) draft.build draft.build := by
  unfold ParamDraft.build
  apply Agree.bind (Literal.build_agree (e := e) draft.name low)
  rintro k₁ a _ _ ⟨ha, rfl⟩
  apply Agree.bind (Literal.build_agree (e := e) draft.type k₁)
  rintro k₂ b _ h₂ ⟨hb, rfl⟩
  apply Agree.bind (Literal.build_agree (e := e) draft.description k₂)
  rintro k₃ c _ h₃ ⟨hc, rfl⟩
  apply Agree.bind (Literal.build_agree (e := e) draft.required k₃)
  rintro k₄ d _ h₄ ⟨hd, rfl⟩
  apply Agree.bind (Literal.build_agree (e := e) draft.default k₄)
  rintro k₅ f _ h₅ ⟨hf, rfl⟩
  apply Agree.pure
  intro k₆ h₆
  refine ⟨?_, rfl⟩
  intro row hrow
  simp only [ParamSpec.fields, ParamSpec.values, Shape.fields, List.zip_cons_cons, List.zip_nil_right,
    List.mem_cons, List.not_mem_nil, or_false] at hrow
  rcases hrow with rfl | rfl | rfl | rfl | rfl
  · exact ha.mono (e.upTo_mono (by omega))
  · exact hb.mono (e.upTo_mono (by omega))
  · exact hc.mono (e.upTo_mono (by omega))
  · exact hd.mono (e.upTo_mono (by omega))
  · exact hf.mono (e.upTo_mono (by omega))

theorem Link.draftFields_agree {L : Link} (draft : ParamDraft) :
    L.Agree e L.RenamedNamed (Machine.draftFields draft) (Machine.draftFields draft) := by
  unfold Machine.draftFields
  apply Agree.bind (build_agree (Q := fun e' (p p' : ParamSpec) => Named.Within e' p.fields ∧
    p'.fields = Named.rename L.ρ p.fields) (ParamDraft.build_agree (e := e) draft e.marks) ?_)
  · rintro e₁ p p' _ ⟨hw, hp⟩
    show L.Agree e₁ L.RenamedNamed (p.fields.mapM fun row => do return (row.1, ← Run.share row.2))
      (p'.fields.mapM fun row => do return (row.1, ← Run.share row.2))
    rw [hp]
    unfold Named.rename
    rw [List.mapM_map]
    exact rows_agree (g := fun x => Run.share (x.rename L.ρ)) p.fields
      fun row hr e' he => share_agree row.2 ((hw row hr).mono he)
  · rintro e₁ p p' he ⟨hw, hp⟩
    exact ⟨hw.mono (Extent.upTo_below he), hp⟩

end Agreement

namespace World

variable {w v u : World} {C : Nat → Prop}

/-- The cells of data of a world, and those that a later one has in addition. -/
def gained (w : World) (C : Nat → Prop) (v : World) (n : Nat) : Prop :=
  (C n ∨ w.cells.length ≤ n) ∧ n < v.cells.length

theorem Later.of_preserved {n : Nat} (h : Preserved (· = n) False w v)
    (hn : w.cells.length ≤ n) : w.Later v (fun _ => False) where
  rest := by
    have hx := h.extras.resolve_left id
    conv_rhs => rw [← h.rest]
    rw [← h.classes, ← h.objects, ← hx]
  classes := h.classes ▸ List.prefix_rfl
  objects := h.objects ▸ List.prefix_rfl
  handles := by
    rw [List.prefix_iff_getElem?]
    intro r hr
    rw [h.handles r hr, List.getElem?_eq_getElem hr]
  cells k x _ hx := by
    have hlt := (List.getElem?_eq_some_iff.mp hx).1
    rw [h.cells k hlt (by omega), hx]
  cells_le := h.cells_le
  marks_le := h.marks_le

/-- What a computation leaves that makes plain data: cells of data, and nothing that was changed. -/
structure Gains (w : World) (C : Nat → Prop) (v : World) : Prop where
  later : w.Later v (fun _ => False)
  data : v.HoldsData (w.gained C v)

theorem Gains.below (h : w.Gains C v) (hd : w.HoldsData C) :
    (w.data C).Below (v.data (w.gained C v)) where
  cell _ hn := ⟨.inl hn, Nat.lt_of_lt_of_le (hd.lt hn) h.later.cells_le⟩
  routine _ hr := hr.elim
  marks := h.later.marks_le

theorem Gains.linked {x : World} {hr : w.Retains x C} (hl : hr.link.Linked v u) :
    w.Gains C v ∧ (hr.link.extent v).Below (v.data (w.gained C v)) := by
  have below : (hr.link.extent v).Below (v.data (w.gained C v)) :=
    { cell := fun _ hn => hn
      routine := by
        rintro r ⟨hr, hlt⟩
        obtain ⟨_, hh, _⟩ := hl.handles r (hr.resolve_left id) hlt
        exact hh.elim
      marks := Nat.le_refl _ }
  refine ⟨⟨.of_preserved hl.left (Nat.le_refl _), ?_⟩, below⟩
  rintro n ⟨hn, hlt⟩
  exact ⟨_, List.getElem?_eq_getElem hlt,
    (hl.within n _ hn (List.getElem?_eq_getElem hlt)).mono below⟩

variable {α β : Type} {Q : Link → Extent → α → β → Prop} {r : Run α} {s : Run β}

/-- A computation that runs alike on two sides without contexts leaves plain data, also where it
fails. -/
theorem HoldsData.gains (hd : w.HoldsData C) (ha : ∀ (L : Link) (e : Extent), L.Agree e (Q L) r s) :
    w.Gains C (r.exec w).2 := by
  have hr := Retains.refl w C
  have alike := ha hr.link _ w w (hr.linked hd) (Extent.Below.refl _)
  unfold Link.Alike at alike
  generalize r.exec w = x at alike
  generalize s.exec w = y at alike
  cases alike with
  | ok hl => exact (Gains.linked hl).1
  | error hl => exact (Gains.linked hl).1

theorem HoldsData.given (hd : w.HoldsData C) (ha : ∀ (L : Link) (e : Extent), L.Agree e (Q L) r s)
    {a : α} (h : r.exec w = (.ok a, v)) :
    ∃ L b e, Q L e a b ∧ e.Below (v.data (w.gained C v)) := by
  have hr := Retains.refl w C
  have alike := ha hr.link _ w w (hr.linked hd) (Extent.Below.refl _)
  unfold Link.Alike at alike
  rw [h] at alike
  generalize s.exec w = y at alike
  cases alike with
  | @ok _ b _ _ hl _ hq => exact ⟨hr.link, b, _, hq, (Gains.linked hl).2⟩

variable {l : Literal} {draft : ParamDraft}

theorem HoldsData.literal (hd : w.HoldsData C) {x : Value}
    (h : (Run.literal l).exec w = (.ok x, v)) :
    x.Within (v.data (w.gained C v)) ∧ x.IsShared := by
  obtain ⟨_, _, e, ⟨hx, _⟩, he⟩ :=
    hd.given (Q := Link.Renamed) (fun L e => Link.literal_agree l) h
  exact ⟨hx.mono he, Run.isShared_literal h⟩

theorem HoldsData.literals (hd : w.HoldsData C) {ls : List Literal} {xs : List Value}
    (h : (Run.literals ls).exec w = (.ok xs, v)) :
    ∀ x ∈ xs, x.Within (v.data (w.gained C v)) ∧ x.IsShared := by
  obtain ⟨_, _, e, ⟨hx, _⟩, he⟩ :=
    hd.given (Q := Link.RenamedItems) (fun L e => Link.literals_agree ls) h
  intro x hm
  obtain ⟨l, -, u, u', hl⟩ := forall₂_right (Run.forall₂_mapM h) hm
  exact ⟨(hx x hm).mono he, Run.isShared_literal hl⟩

/-- Values that are written under names are plain data, and no other names are there. -/
theorem HoldsData.literalRows (hd : w.HoldsData C) {rows : Literal.Rows} {named : Named}
    (h : (Run.literalRows rows).exec w = (.ok named, v)) :
    (∀ row ∈ named, row.2.Within (v.data (w.gained C v)) ∧ row.2.IsShared) ∧
      ∀ key ∈ Table.keys named, key ∈ Table.keys rows := by
  obtain ⟨_, _, e, ⟨hx, _⟩, he⟩ :=
    hd.given (Q := Link.RenamedNamed) (fun L e => Link.literalRows_agree rows) h
  obtain ⟨written, u, hw, hr⟩ := Run.of_exec_bind h
  cases hr
  have hrows := Run.forall₂_mapM hw
  constructor
  · intro row hm
    obtain ⟨l, -, u, u', hl⟩ := forall₂_right hrows (Table.mem_ofRows hm)
    obtain ⟨y, u'', hy, hpure⟩ := Run.of_exec_bind hl
    cases hpure
    exact ⟨(hx _ hm).mono he, Run.isShared_literal hy⟩
  · intro key hk
    rw [Table.mem_keys_ofRows_iff] at hk
    obtain ⟨row', hm', rfl⟩ := List.mem_map.mp hk
    obtain ⟨l, hm, u, u', hl⟩ := forall₂_right hrows hm'
    obtain ⟨y, u'', hy, hpure⟩ := Run.of_exec_bind hl
    cases hpure
    exact List.mem_map_of_mem hm

theorem HoldsData.draftFields (hd : w.HoldsData C) {named : Named}
    (h : (Machine.draftFields draft).exec w = (.ok named, v)) :
    ∃ p : ParamSpec, named = p.fields ∧
      ∀ x ∈ p.values, x.Within (v.data (w.gained C v)) ∧ x.IsShared := by
  obtain ⟨_, _, e, ⟨hx, _⟩, he⟩ :=
    hd.given (Q := Link.RenamedNamed) (fun L e => Link.draftFields_agree draft) h
  obtain ⟨spec, _, _, hrows⟩ := Run.of_exec_bind h
  obtain ⟨hkeys, hshared⟩ := Run.isShared_rows hrows
  obtain ⟨p, rfl⟩ := ParamSpec.exists_fields hkeys
  refine ⟨p, rfl, fun x hm => ?_⟩
  have hrow : ∃ name, (name, x) ∈ p.fields := by
    simp only [ParamSpec.fields, ParamSpec.values, Shape.fields, List.zip_cons_cons, List.zip_nil_right,
      List.mem_cons, List.not_mem_nil, or_false, Prod.mk.injEq] at hm ⊢
    grind
  obtain ⟨name, hrow⟩ := hrow
  exact ⟨(hx _ hrow).mono he, hshared _ hrow⟩

end World

end Toolwright
