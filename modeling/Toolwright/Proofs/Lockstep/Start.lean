import Toolwright.Proofs.Lockstep.Calling
import Toolwright.Proofs.Lockstep.Memory

/-!
# Starting in lockstep

A computation that is started in a world and again in a grown one makes its own cells, functions and
marks. What it makes in the second world lies above all that was added in between.
-/

/-!
## Growth

A world grows if objects, cells and functions are added to it and nothing that it holds is changed.
Marks are spent and records are logged.
-/

namespace Toolwright

set_option autoImplicit false

/-- What a world holds another one holds as well. -/
structure World.Extends (b w : World) : Prop where
  classes : w.classes = b.classes
  objects : b.objects <+: w.objects
  cells : b.cells <+: w.cells
  handles : b.handles <+: w.handles
  extras : w.extras = b.extras
  marks : b.marks ≤ w.marks
  logFrom : w.logFrom = b.logFrom

namespace World.Extends

variable {b v w : World}

theorem refl (w : World) : w.Extends w :=
  ⟨rfl, List.prefix_rfl, List.prefix_rfl, List.prefix_rfl, rfl, Nat.le_refl _, rfl⟩

theorem trans (h : b.Extends v) (h' : v.Extends w) : b.Extends w :=
  ⟨h'.classes.trans h.classes, h.objects.trans h'.objects, h.cells.trans h'.cells,
    h.handles.trans h'.handles, h'.extras.trans h.extras, Nat.le_trans h.marks h'.marks,
    h'.logFrom.trans h.logFrom⟩

theorem handle (h : b.Extends w) {r : Nat} {handle : Handle} (hr : b.handles[r]? = some handle) :
    w.handles[r]? = some handle := by
  obtain ⟨more, hm⟩ := h.handles
  rw [← hm, List.getElem?_append_left (List.getElem?_eq_some_iff.mp hr).1, hr]

theorem object (h : b.Extends w) {o : Nat} {obj : HostObject} (ho : b.objects[o]? = some obj) :
    w.objects[o]? = some obj := by
  obtain ⟨more, hm⟩ := h.objects
  rw [← hm, List.getElem?_append_left (List.getElem?_eq_some_iff.mp ho).1, ho]

theorem cell (h : b.Extends w) {n : Nat} {x : Value} (hn : b.cells[n]? = some x) :
    w.cells[n]? = some x := by
  obtain ⟨more, hm⟩ := h.cells
  rw [← hm, List.getElem?_append_left (List.getElem?_eq_some_iff.mp hn).1, hn]

end World.Extends

/-- Nothing is changed but that there is more, or that records are logged. -/
structure World.Grown (b w : World) : Prop where
  rest : { w with
    objects := b.objects, cells := b.cells, handles := b.handles, marks := b.marks,
    log := b.log } = b
  objects : b.objects <+: w.objects
  cells : b.cells <+: w.cells
  handles : b.handles <+: w.handles
  marks : b.marks ≤ w.marks

namespace World.Grown

variable {b v w : World}

theorem refl (w : World) : w.Grown w :=
  ⟨rfl, List.prefix_rfl, List.prefix_rfl, List.prefix_rfl, Nat.le_refl _⟩

theorem trans (h : b.Grown v) (h' : v.Grown w) : b.Grown w where
  rest := by
    have h1 := h.rest
    rw [← h'.rest] at h1
    exact h1
  objects := h.objects.trans h'.objects
  cells := h.cells.trans h'.cells
  handles := h.handles.trans h'.handles
  marks := Nat.le_trans h.marks h'.marks

theorem classes (h : b.Grown w) : w.classes = b.classes := by
  have := congrArg World.classes h.rest
  exact this

theorem extras (h : b.Grown w) : w.extras = b.extras := by
  have := congrArg World.extras h.rest
  exact this

theorem logFrom (h : b.Grown w) : w.logFrom = b.logFrom := by
  have := congrArg World.logFrom h.rest
  exact this

theorem classIds (h : b.Grown w) : w.classIds = b.classIds := by
  have := congrArg World.classIds h.rest
  exact this

theorem holds (h : b.Grown w) : b.Extends w :=
  ⟨h.classes, h.objects, h.cells, h.handles, h.extras, h.marks, h.logFrom⟩

theorem log (h : b.Grown w) (log : List Record) : b.Grown { w with log } :=
  { h with rest := h.rest }

theorem newCells (w : World) (xs : List Value) : w.Grown { w with cells := w.cells ++ xs } where
  rest := rfl
  objects := List.prefix_rfl
  cells := List.prefix_append _ _
  handles := List.prefix_rfl
  marks := Nat.le_refl _

theorem newObject (w : World) (obj : HostObject) :
    w.Grown { w with objects := w.objects ++ [obj] } where
  rest := rfl
  objects := List.prefix_append _ _
  cells := List.prefix_rfl
  handles := List.prefix_rfl
  marks := Nat.le_refl _

end World.Grown

/-- What is preserved extends what was there before, if what is owned was not. -/
theorem Preserved.holds {owned : Nat → Prop} {a b w : World} (h : Preserved owned False b w)
    (hb : a.Extends b) (ho : ∀ n, owned n → a.cells.length ≤ n) : a.Extends w where
  classes := h.classes.trans hb.classes
  objects := h.objects ▸ hb.objects
  cells := by
    rw [List.prefix_iff_getElem?]
    intro n hn
    have hlt : n < b.cells.length := Nat.lt_of_lt_of_le hn hb.cells.length_le
    rw [h.cells n hlt fun hown => Nat.not_le_of_lt hn (ho n hown)]
    exact hb.cell (List.getElem?_eq_getElem hn)
  handles := by
    rw [List.prefix_iff_getElem?]
    intro r hr
    rw [h.handles r (Nat.lt_of_lt_of_le hr hb.handles.length_le)]
    exact hb.handle (List.getElem?_eq_getElem hr)
  extras := (h.extras.resolve_left id).trans hb.extras
  marks := Nat.le_trans hb.marks h.marks_le
  logFrom := by
    have hlog := congrArg World.logFrom h.rest
    exact Eq.trans hlog hb.logFrom

theorem Preserved.grown {owned : Nat → Prop} {a b w : World} (h : Preserved owned False b w)
    (hb : a.Grown b) (ho : ∀ n, owned n → a.cells.length ≤ n) : a.Grown w where
  rest := by
    have h1 := hb.rest
    have hx : w.extras = b.extras := h.extras.resolve_left id
    rw [← h.rest] at h1
    rw [← hx] at h1
    exact h1
  objects := (h.holds hb.holds ho).objects
  cells := (h.holds hb.holds ho).cells
  handles := (h.holds hb.holds ho).handles
  marks := Nat.le_trans hb.marks h.marks_le

/-! ## First steps -/

/-- Takes what is below a bound where it belongs, and moves the rest up to another bound. -/
def moved (σ : Nat → Nat) (n n' k : Nat) : Nat := if k < n then σ k else n' + (k - n)

/-- Keeps what is below a bound and moves the rest up to another one. -/
def shifted (n n' k : Nat) : Nat := moved id n n' k

theorem moved_below {σ : Nat → Nat} {n n' k : Nat} (h : k < n) : moved σ n n' k = σ k := if_pos h

theorem moved_add (σ : Nat → Nat) (n n' j : Nat) : moved σ n n' (n + j) = n' + j := by
  unfold moved
  rw [if_neg (by omega), Nat.add_sub_cancel_left]

theorem moved_injective {σ : Nat → Nat} {n n' a b : Nat} (hσ : Function.Injective σ)
    (h : ∀ k, k < n → σ k < n') (he : moved σ n n' a = moved σ n n' b) : a = b := by
  unfold moved at he
  split at he <;> split at he
  · exact hσ he
  · have := h a (by assumption)
    omega
  · have := h b (by assumption)
    omega
  · omega

theorem shifted_below {n n' k : Nat} (h : k < n) : shifted n n' k = k := moved_below h

theorem shifted_add (n n' j : Nat) : shifted n n' (n + j) = n' + j := moved_add id n n' j

theorem shifted_injective {n n' a b : Nat} (h : n ≤ n') (he : shifted n n' a = shifted n n' b) :
    a = b :=
  moved_injective Function.injective_id (fun _ hk => Nat.lt_of_lt_of_le hk h) he

/-- A world that has a function for each one of another world, and at least as many cells and
marks. -/
structure World.Ahead (b v : World) (σ : Nat → Nat) : Prop where
  cells : b.cells.length ≤ v.cells.length
  routines : ∀ r, r < b.handles.length → σ r < v.handles.length
  injective : Function.Injective σ
  marks : b.marks ≤ v.marks
  logFrom : v.logFrom = b.logFrom

namespace World.Ahead

variable {b v : World} {σ : Nat → Nat}

/-- What the first run makes above the world that it started in, the second one makes above its own
world. -/
def toRenaming (h : b.Ahead v σ) : Renaming where
  cell := shifted b.cells.length v.cells.length
  routine := moved σ b.handles.length v.handles.length
  mark := shifted b.marks v.marks
  cell_injective := shifted_injective h.cells
  routine_injective := moved_injective h.injective h.routines
  mark_injective := shifted_injective h.marks

/-- The link of two runs that have no context yet, and no class of one. -/
def link (h : b.Ahead v σ) : Link where
  ρ := h.toRenaming
  left := ⟨b, 0, b.classes.length⟩
  right := ⟨v, 0, v.classes.length⟩
  store := b.cells.length
  cell := (b.cells.length ≤ ·)
  bound := (b.handles.length ≤ ·)
  helper _ := False
  shared _ := False
  exposed _ := False
  settable := False
  present := False

theorem linked (h : b.Ahead v σ) : h.link.Linked b v where
  sound :=
    { contexts := False.elim
      helper_present := fun _ => False.elim
      helper := fun _ => False.elim
      shared := fun _ => False.elim
      cell_store := Nat.le_refl _
      cell_new := fun _ hn => hn
      cell_shift := shifted_add _ _
      bound_new := fun _ hr => hr
      logFrom := h.logFrom.symm }
  left := Preserved.refl _ _ _
  right := Preserved.refl _ _ _
  cells := by
    intro n hn
    obtain ⟨j, rfl⟩ := Nat.exists_eq_add_of_le hn
    have hv : v.cells[shifted b.cells.length v.cells.length (b.cells.length + j)]? = none := by
      rw [shifted_add]
      exact List.getElem?_eq_none (by omega)
    rw [List.getElem?_eq_none hn]
    exact hv
  within := by
    intro n x hn hx
    rw [List.getElem?_eq_none hn] at hx
    cases hx
  cell_shift := shifted_add _ _
  handles := by
    intro r hr hlt
    exact absurd hlt (Nat.not_lt_of_le hr)
  routine_shift := moved_add _ _ _
  mark_shift := shifted_add _ _
  extras := fun ⟨_, hr⟩ => hr.elim

theorem nameless (_ : b.Ahead v σ) :
    v.className (.made v.classes.length) = b.className (.made b.classes.length) := by
  have absent (w : World) : w.className (.made w.classes.length) = "" := by
    unfold World.className
    dsimp only
    rw [List.getElem?_eq_none (Nat.le_refl _)]
    rfl
  exact (absent v).trans (absent b).symm

theorem faults_eq (h : b.Ahead v σ) {f g : Fault} (hf : h.link.Faults f g) : f = g := by
  have names := h.nameless
  cases hf with
  | same => rfl
  | ofObject => exact congrArg (fun name => Fault.noAttribute (.object name) _) names.symm
  | ofClass => exact congrArg (fun name => Fault.noAttribute (.cls name) _) names.symm

end World.Ahead

theorem World.Grown.ahead {b v : World} (h : b.Grown v) : b.Ahead v id where
  cells := h.cells.length_le
  routines _ hr := Nat.lt_of_lt_of_le hr h.handles.length_le
  injective := Function.injective_id
  marks := h.marks
  logFrom := h.logFrom

namespace Link

variable {L : Link} {e : Extent}

/-! ## Arguments that are written -/

theorem literals_agree (ls : List Literal) :
    L.Agree e L.RenamedItems (Run.literals ls) (Run.literals ls) := by
  unfold Run.literals
  exact Agree.mapM ls fun l _ _ _ => literal_agree l

theorem literalRows_agree (rows : Literal.Rows) :
    L.Agree e L.RenamedNamed (Run.literalRows rows) (Run.literalRows rows) := by
  unfold Run.literalRows
  apply Agree.bind (rows_agree rows fun row _ _ _ => literal_agree row.2)
  rintro e₁ named _ _ ⟨hn, rfl⟩
  apply Agree.pure
  intro e₂ he
  exact ⟨(Named.within_ofRows hn).mono he, Named.ofRows_rename _ named⟩

end Link

end Toolwright
