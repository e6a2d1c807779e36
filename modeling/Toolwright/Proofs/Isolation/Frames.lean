import Toolwright.Proofs.Isolation.Calls

/-!
# Frames of linked runs

What others do in the worlds of two linked objects adds cells, functions and objects, and may change
cells that neither object has hold of. The objects are linked again after it: what they have hold of
stays where it was, and what is new from there on is moved up.
-/

namespace Toolwright

set_option autoImplicit false

/-- What a world holds another one holds as well, but for the cells that may have changed. -/
structure World.Besides (changed : Nat → Prop) (b w : World) : Prop where
  classes : w.classes = b.classes
  objects : b.objects <+: w.objects
  cells : ∀ n, n < b.cells.length → ¬ changed n → w.cells[n]? = b.cells[n]?
  cells_le : b.cells.length ≤ w.cells.length
  handles : b.handles <+: w.handles
  extras : w.extras = b.extras
  marks : b.marks ≤ w.marks
  logFrom : w.logFrom = b.logFrom

theorem World.Extends.besides {b w : World} (h : b.Extends w) (changed : Nat → Prop) :
    b.Besides changed w where
  classes := h.classes
  objects := h.objects
  cells n hn _ := by
    obtain ⟨x, hx⟩ : ∃ x, b.cells[n]? = some x := ⟨_, List.getElem?_eq_getElem hn⟩
    rw [hx, h.cell hx]
  cells_le := h.cells.length_le
  handles := h.handles
  extras := h.extras
  marks := h.marks
  logFrom := h.logFrom

theorem Preserved.besides {owned : Nat → Prop} {b w : World} (h : Preserved owned False b w) :
    b.Besides owned w where
  classes := h.classes
  objects := h.objects ▸ List.prefix_refl _
  cells := h.cells
  cells_le := h.cells_le
  handles := by
    refine List.prefix_iff_getElem?.mpr fun i hi => ?_
    rw [h.handles i hi, List.getElem?_eq_getElem hi]
  extras := h.extras.resolve_left id
  marks := h.marks_le
  logFrom := h.logFrom

namespace World.Besides

variable {changed : Nat → Prop} {b w : World}

theorem object (h : b.Besides changed w) {o : Nat} {obj : HostObject}
    (ho : b.objects[o]? = some obj) : w.objects[o]? = some obj := by
  obtain ⟨hlt, rfl⟩ := List.getElem?_eq_some_iff.mp ho
  exact List.prefix_iff_getElem?.mp h.objects o hlt

theorem handle (h : b.Besides changed w) {r : Nat} {handle : Handle}
    (hr : b.handles[r]? = some handle) : w.handles[r]? = some handle := by
  obtain ⟨hlt, rfl⟩ := List.getElem?_eq_some_iff.mp hr
  exact List.prefix_iff_getElem?.mp h.handles r hlt

end World.Besides

/-! ## Room above what stands for something -/

/-- What a first world has stands for something below the bounds of a second one. -/
structure Renaming.Fits (ρ : Renaming) (a b : World) : Prop where
  cell : ∀ n, n < a.cells.length → ρ.cell n < b.cells.length
  routine : ∀ r, r < a.handles.length → ρ.routine r < b.handles.length
  mark : ∀ k, k < a.marks → ρ.mark k < b.marks

namespace Renaming.Fits

variable {ρ : Renaming} {a b : World}

def toRenaming (h : ρ.Fits a b) : Renaming where
  cell := moved ρ.cell a.cells.length b.cells.length
  routine := moved ρ.routine a.handles.length b.handles.length
  mark := moved ρ.mark a.marks b.marks
  cell_injective := moved_injective (fun _ _ => ρ.cell_injective) h.cell
  routine_injective := moved_injective (fun _ _ => ρ.routine_injective) h.routine
  mark_injective := moved_injective (fun _ _ => ρ.mark_injective) h.mark

theorem fits_toRenaming (h : ρ.Fits a b) : h.toRenaming.Fits a b where
  cell n hn := lt_of_eq_of_lt (moved_below hn) (h.cell n hn)
  routine r hr := lt_of_eq_of_lt (moved_below hr) (h.routine r hr)
  mark k hk := lt_of_eq_of_lt (moved_below hk) (h.mark k hk)

theorem grow (h : ρ.Fits a b) {w : World} {changed : Nat → Prop} (hw : b.Besides changed w) :
    ρ.Fits a w where
  cell n hn := Nat.lt_of_lt_of_le (h.cell n hn) hw.cells_le
  routine r hr := Nat.lt_of_lt_of_le (h.routine r hr) hw.handles.length_le
  mark k hk := Nat.lt_of_lt_of_le (h.mark k hk) hw.marks

end Renaming.Fits

/-- What is new in a first world stands for what is new in a second one. -/
structure Renaming.ShiftsUp (ρ : Renaming) (a b : World) : Prop where
  cell : ∀ j, ρ.cell (a.cells.length + j) = b.cells.length + j
  routine : ∀ j, ρ.routine (a.handles.length + j) = b.handles.length + j
  mark : ∀ j, ρ.mark (a.marks + j) = b.marks + j

theorem Link.Linked.shiftsUp {L : Link} {w v : World} (h : L.Linked w v) : L.ρ.ShiftsUp w v :=
  ⟨h.cell_shift, h.routine_shift, h.mark_shift⟩

structure World.GrownAlike (a b a' b' : World) : Prop where
  cells : ∃ k, a'.cells.length = a.cells.length + k ∧ b'.cells.length = b.cells.length + k
  handles : ∃ k, a'.handles.length = a.handles.length + k ∧ b'.handles.length = b.handles.length + k
  marks : ∃ k, a'.marks = a.marks + k ∧ b'.marks = b.marks + k

section Growth

variable {ρ : Renaming} {a b a' b' : World} {changed : Nat → Prop}

theorem Renaming.ShiftsUp.grownAlike (h : ρ.ShiftsUp a b) (h' : ρ.ShiftsUp a' b')
    (ha : a.Besides changed a') : a.GrownAlike b a' b' := by
  have grown {f : Nat → Nat} {n n' m m' : Nat} (hs : ∀ j, f (n + j) = n' + j) (hnm : n ≤ m)
      (hm : f m = m') : ∃ k, m = n + k ∧ m' = n' + k := by
    obtain ⟨k, rfl⟩ := Nat.exists_eq_add_of_le hnm
    exact ⟨k, rfl, by rw [← hm, hs]⟩
  exact ⟨grown h.cell ha.cells_le (h'.cell 0), grown h.routine ha.handles.length_le (h'.routine 0),
    grown h.mark ha.marks (h'.mark 0)⟩

theorem Renaming.Fits.grownAlike (h : ρ.Fits a b) (hs : ρ.ShiftsUp a b)
    (hg : a.GrownAlike b a' b') : ρ.Fits a' b' := by
  have below {f : Nat → Nat} {n n' k m : Nat} (h : ∀ m, m < n → f m < n')
      (hs : ∀ j, f (n + j) = n' + j) (hm : m < n + k) : f m < n' + k := by
    rcases Nat.lt_or_ge m n with hlt | hge
    · exact Nat.lt_of_lt_of_le (h m hlt) (Nat.le_add_right _ _)
    · obtain ⟨j, rfl⟩ := Nat.exists_eq_add_of_le hge
      rw [hs]
      omega
  obtain ⟨k, hk, hk'⟩ := hg.cells
  obtain ⟨l, hl, hl'⟩ := hg.handles
  obtain ⟨m, hm, hm'⟩ := hg.marks
  constructor
  · rw [hk, hk']
    exact fun n hn => below h.cell hs.cell hn
  · rw [hl, hl']
    exact fun r hr => below h.routine hs.routine hr
  · rw [hm, hm']
    exact fun n hn => below h.mark hs.mark hn

end Growth

/-! ## Linked again -/

section Relinked

variable {w v l r A A' B B' : World} {σ : Nat → Nat} {a a' : Nat} {block apart : Nat → Prop}
  {ρ : Renaming} {self self' store : Nat} {cell bound changed : Nat → Prop}

def World.relink (w : World) (a a' : Nat) (block apart : Nat → Prop) {ρ : Renaming} {A' B' : World}
    (hf : ρ.Fits A' B') (A : World) (self self' store : Nat) (cell bound : Nat → Prop) : Link :=
  w.contextLink a a' block apart False hf.toRenaming A' B' self self' store
    (fun n => cell n ∧ n < A.cells.length ∨ A'.cells.length ≤ n)
    (fun k => bound k ∧ k < A.handles.length ∨ A'.handles.length ≤ k)

theorem relink_agrees (hf : ρ.Fits A' B') (hA : A.Extends A') :
    hf.toRenaming.Agrees ρ
      ((w.contextLink a a' block apart False ρ l r self self' store cell bound).extent A) where
  cell _ hn := moved_below (Nat.lt_of_lt_of_le hn.2 hA.cells.length_le)
  routine _ hr := moved_below (Nat.lt_of_lt_of_le hr.2 hA.handles.length_le)
  mark _ hk := moved_below (Nat.lt_of_lt_of_le hk hA.marks)

theorem relink_below (hf : ρ.Fits A' B') (hA : A.Extends A') :
    ((w.contextLink a a' block apart False ρ l r self self' store cell bound).extent A).Below
      ((w.relink a a' block apart hf A self self' store cell bound).extent A') where
  cell _ hn := ⟨.inl hn, Nat.lt_of_lt_of_le hn.2 hA.cells.length_le⟩
  routine _ hr :=
    ⟨hr.1.imp_right fun hb => .inl ⟨hb, hr.2⟩, Nat.lt_of_lt_of_le hr.2 hA.handles.length_le⟩
  marks := hA.marks

/-- After the first world has grown, and the second one but for cells that its object has not hold
of, the objects are linked again. -/
theorem relink_linked (hs : w.SameHelpers v σ a a' block apart False)
    (hl : (w.contextLink a a' block apart False ρ l r self self' store cell bound).Linked A B)
    (hw : w.Extends A) (hv : v.Extends B') (hA : A.Extends A') (hB : B.Besides changed B')
    (hf : ρ.Fits A' B') (hσ : ∀ k, k < w.handles.length → ρ.routine k = σ k)
    (hstore : store < A.cells.length)
    (hfree : ∀ n, cell n → n < A.cells.length → ¬ changed (ρ.cell n))
    (hu : A'.extras = [] ∧ B'.extras = []) :
    (w.relink a a' block apart hf A self self' store cell bound).Linked A' B' := by
  have hagree : hf.toRenaming.Agrees ρ
      ((w.contextLink a a' block apart False ρ l r self self' store cell bound).extent A) :=
    relink_agrees hf hA
  have hbelow : ((w.contextLink a a' block apart False ρ l r self self' store cell bound).extent
      A).Below ((w.relink a a' block apart hf A self self' store cell bound).extent A') :=
    relink_below hf hA
  have hlen := hA.cells.length_le
  have hlog : A'.logFrom = B'.logFrom := by
    rw [hA.logFrom, hB.logFrom, hl.left.logFrom, hl.right.logFrom, hl.sound.logFrom]
  have hkept (x : Value) (n : Nat) (hn : cell n) (hlt : n < A.cells.length)
      (hx : A.cells[n]? = some x) : x.rename hf.toRenaming = x.rename ρ :=
    Value.rename_agrees hagree (hl.within n x hn hx)
  have hctx := hl.sound.contexts trivial
  exact {
    sound := by
      apply hs.sound (hw.trans hA).keeps hv.keeps
      · obtain ⟨obj, ho, hobj⟩ := Option.map_eq_some_iff.mp hctx.left_object
        rw [show A'.objects[self]? = some obj from hA.object (hl.left.objects ▸ ho)]
        exact congrArg some hobj
      · obtain ⟨obj, ho, hobj⟩ := Option.map_eq_some_iff.mp hctx.right_object
        rw [show B'.objects[self']? = some obj from hB.object (hl.right.objects ▸ ho),
          show hf.toRenaming.cell store = ρ.cell store from moved_below (Nat.lt_of_lt_of_le hstore hlen)]
        exact congrArg some hobj
      · intro k hk
        exact (moved_below (Nat.lt_of_lt_of_le hk (hw.trans hA).handles.length_le)).trans (hσ k hk)
      · exact .inl ⟨hl.sound.cell_store, hstore⟩
      · exact fun n hn => .inr hn
      · exact moved_add _ _ _
      · exact fun k hk => .inr hk
      · exact hlog
    left := Preserved.refl _ _ _
    right := Preserved.refl _ _ _
    cells := by
      rintro n (⟨hn, hlt⟩ | hn)
      · obtain ⟨x, hx⟩ : ∃ x, A.cells[n]? = some x := ⟨_, List.getElem?_eq_getElem hlt⟩
        have hlt' : ρ.cell n < B.cells.length := (hl.cell_lt hn).mpr hlt
        have hmoved : hf.toRenaming.cell n = ρ.cell n := moved_below (Nat.lt_of_lt_of_le hlt hlen)
        have hold : B.cells[ρ.cell n]? = some (x.rename ρ) := (hl.cells n hn).trans (by rw [hx]; rfl)
        show B'.cells[hf.toRenaming.cell n]? = (A'.cells[n]?).map (Value.rename hf.toRenaming)
        rw [hmoved, hB.cells _ hlt' (hfree n hn hlt), hold, hA.cell hx, Option.map,
          hkept x n hn hlt hx]
      · obtain ⟨j, rfl⟩ := Nat.exists_eq_add_of_le hn
        have hmoved : hf.toRenaming.cell (A'.cells.length + j) = B'.cells.length + j :=
          moved_add _ _ _ j
        show B'.cells[hf.toRenaming.cell _]? = _
        rw [hmoved, List.getElem?_eq_none hn, List.getElem?_eq_none (Nat.le_add_right _ _)]
        rfl
    within := by
      rintro n x (⟨hn, hlt⟩ | hn) hx
      · obtain ⟨y, hy⟩ : ∃ y, A.cells[n]? = some y := ⟨_, List.getElem?_eq_getElem hlt⟩
        obtain rfl : y = x := Option.some.inj ((hA.cell hy).symm.trans hx)
        exact (hl.within n y hn hy).mono hbelow
      · rw [List.getElem?_eq_none hn] at hx
        cases hx
    cell_shift := moved_add _ _ _
    handles := by
      rintro k (⟨hk, hlt⟩ | hk) hlt'
      · obtain ⟨g, hg, hleft, hright⟩ := hl.handles k hk hlt
        obtain ⟨body, hbody, -⟩ := hs.ofInstance g hg
        have hgl : g < w.handles.length := (List.getElem?_eq_some_iff.mp hbody).1
        refine ⟨g, hg, hA.handle hleft, ?_⟩
        show B'.handles[moved ρ.routine _ _ k]? = some ⟨.forwards (routineValue (moved ρ.routine _ _ g)), _⟩
        rw [moved_below (Nat.lt_of_lt_of_le hlt hA.handles.length_le),
          moved_below (Nat.lt_of_lt_of_le hgl (hw.trans hA).handles.length_le)]
        exact hB.handle hright
      · exact absurd hlt' (Nat.not_lt_of_le hk)
    routine_shift := moved_add _ _ _
    mark_shift := moved_add _ _ _
    extras := by
      intro _
      rw [hu.1, hu.2]
      exact ⟨rfl, by simp⟩ }

end Relinked

end Toolwright
