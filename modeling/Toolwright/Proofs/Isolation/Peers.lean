import Toolwright.Proofs.Adaptation.BothHosts
import Toolwright.Proofs.Isolation.Frames
import Toolwright.Proofs.Lockstep.Told

/-!
# Peers

An object in each of two worlds, of classes that execute alike. Whatever is called of both has the
same outcome; what it changes but for new cells is what is set on the two objects.
-/

namespace Toolwright

set_option autoImplicit false

/-- An object in each of two worlds, with the classes and the definitions that they are of. -/
structure Peers where
  cls : Nat
  cls' : Nat
  definition : Nat
  definition' : Nat
  /-- The helpers of instances that are reached through the classes. -/
  apart : Nat → Prop
  self : Nat
  self' : Nat
  /-- The cells of what is set on the objects. -/
  store : Nat
  store' : Nat

/-- What stands for what between the worlds of two objects, and what the first one has hold of. -/
structure Tie where
  ρ : Renaming
  cell : Nat → Prop
  bound : Nat → Prop

def Tie.Owns (tie : Tie) (a : World) (m : Nat) : Prop :=
  ∃ n, tie.cell n ∧ n < a.cells.length ∧ tie.ρ.cell n = m

def Peers.link (t : Peers) (w : World) (tie : Tie) (a b : World) : Link :=
  w.contextLink t.cls t.cls' (fun r => w.Shows t.definition "execute_block" (routineValue r)) t.apart
    False tie.ρ a b t.self t.self' t.store tie.cell tie.bound

/-- Two objects that were made in worlds that went on from `w` and `v` are tied. -/
structure Tied (w v : World) (σ : Nat → Nat) (t : Peers) (tie : Tie) (a b : World) : Prop where
  alike : w.ExecutesAlike v σ t.cls t.cls' t.definition t.definition' t.apart
  left : w.Extends a
  right : v.Extends b
  linked : (t.link w tie a b).Linked a b
  stored : t.store < a.cells.length
  left_store : w.cells.length ≤ t.store
  right_store : v.cells.length ≤ t.store'
  store : tie.ρ.cell t.store = t.store'
  fits : tie.ρ.Fits a b
  routine : ∀ k, k < w.handles.length → tie.ρ.routine k = σ k

section Tying

variable {w v l r a a' b b' : World} {σ : Nat → Nat} {t : Peers} {tie : Tie} {changed : Nat → Prop}

theorem Peers.tied (hs : w.ExecutesAlike v σ t.cls t.cls' t.definition t.definition' t.apart)
    (hl : (w.contextLink t.cls t.cls'
      (fun r => w.Shows t.definition "execute_block" (routineValue r)) t.apart False tie.ρ l r t.self
      t.self' t.store tie.cell tie.bound).Linked a b)
    (hw : w.Extends a) (hv : v.Extends b') (ha : a.Extends a') (hb : b.Besides changed b')
    (hf : tie.ρ.Fits a' b') (hσ : ∀ k, k < w.handles.length → tie.ρ.routine k = σ k)
    (hstored : t.store < a.cells.length) (hleft : w.cells.length ≤ t.store)
    (hright : v.cells.length ≤ t.store') (hstore : tie.ρ.cell t.store = t.store')
    (hfree : ∀ m, tie.Owns a m → ¬ changed m) :
    ∃ tie', Tied w v σ t tie' a' b' ∧ ∀ m, tie'.Owns a' m → tie.Owns a m := by
  have hlen := ha.cells.length_le
  refine ⟨⟨hf.toRenaming, fun n => tie.cell n ∧ n < a.cells.length ∨ a'.cells.length ≤ n,
    fun k => tie.bound k ∧ k < a.handles.length ∨ a'.handles.length ≤ k⟩, ?_, ?_⟩
  · exact {
      alike := hs
      left := hw.trans ha
      right := hv
      linked := relink_linked hs.helpers hl hw hv ha hb hf hσ hstored
        (fun n hn hlt => hfree _ ⟨n, hn, hlt, rfl⟩)
        ⟨(hw.trans ha).extras.trans hs.unset.1, hv.extras.trans hs.unset.2⟩
      stored := Nat.lt_of_lt_of_le hstored hlen
      left_store := hleft
      right_store := hright
      store := (moved_below (Nat.lt_of_lt_of_le hstored hlen)).trans hstore
      fits := hf.fits_toRenaming
      routine := fun k hk =>
        (moved_below (Nat.lt_of_lt_of_le hk (hw.trans ha).handles.length_le)).trans (hσ k hk) }
  · rintro m ⟨n, hn | hn, hlt, hm⟩
    · exact ⟨n, hn.1, hn.2, (moved_below hlt).symm.trans hm⟩
    · exact absurd hlt (Nat.not_lt_of_le hn)

namespace Tied

theorem stays (h : Tied w v σ t tie a b) (hv : v.Extends b') (ha : a.Extends a')
    (hb : b.Besides changed b') (hf : tie.ρ.Fits a' b') (hfree : ∀ m, tie.Owns a m → ¬ changed m) :
    ∃ tie', Tied w v σ t tie' a' b' ∧ ∀ m, tie'.Owns a' m → tie.Owns a m :=
  Peers.tied h.alike h.linked h.left hv ha hb hf h.routine h.stored h.left_store h.right_store h.store
    hfree

theorem hosts (h : Tied w v σ t tie a b) :
    (t.link w tie a b).Hosts w v σ t.cls t.cls' t.definition t.definition' where
  present := trivial
  sealed := rfl
  left := h.left
  right := h.right
  store := h.left_store
  store' := Nat.le_trans h.right_store (Nat.le_of_eq h.store.symm)
  cls := rfl
  cls' := rfl
  helper r hr := by
    obtain ⟨body, hb, -⟩ := h.alike.helpers.ofInstance r (.inr hr)
    exact ⟨.inr hr, h.routine r (List.getElem?_eq_some_iff.mp hb).1⟩

theorem isOpen (h : Tied w v σ t tie a b) {name : String} (hf : w.Free v σ t.cls t.cls' name) :
    (t.link w tie a b).Open name :=
  ⟨h.alike.helpers.found h.routine h.left.keeps h.right.keeps hf.helper, hf.object, hf.null⟩

theorem owns_lt (h : Tied w v σ t tie a b) {m : Nat} (hm : tie.Owns a m) :
    m < b.cells.length := by
  obtain ⟨n, -, hn, rfl⟩ := hm
  exact h.fits.cell n hn

theorem store_lt (h : Tied w v σ t tie a b) : t.store' < b.cells.length :=
  h.store ▸ h.fits.cell _ h.stored

end Tied

/-- What can be called of objects of both classes: the methods of the host, or what is found under a
name that the classes leave to helpers and to what blocks set. -/
inductive World.Callable (w v : World) (σ : Nat → Nat) (c c' : Nat) : String → Prop
  | execute : Callable w v σ c c' "execute"
  | call : Callable w v σ c c' "call"
  | free {name : String} (h : w.Free v σ c c' name) : Callable w v σ c c' name

theorem Tied.called (h : Tied w v σ t tie a b) {name : String}
    (hn : w.Callable v σ t.cls t.cls' name) : (t.link w tie a b).Called name := by
  cases hn with
  | execute => exact .execute
  | call => exact .call
  | free hf => exact .free (h.isOpen hf)

theorem Link.Alike.told {L : Link} {w v : World} {x y : Run Value} (h : L.Alike L.Renamed w v x y)
    (hc : L.right.world.className (.made L.right.cls) = L.left.world.className (.made L.left.cls)) :
    (Session.outcome x w).1.map Answer.unmarked = (Session.outcome y v).1.map Answer.unmarked ∧
      L.Linked (x.exec w).2 (y.exec v).2 := by
  unfold Alike at h
  rw [World.outcome_eq, World.outcome_eq]
  generalize x.exec w = p at h ⊢
  generalize y.exec v = q at h ⊢
  cases h with
  | ok hl _ hq =>
    obtain ⟨hx, rfl⟩ := hq
    exact ⟨Answer.ofValue_rename hl hx, hl⟩
  | error hl _ hf =>
    obtain rfl := hf.eq hc
    exact ⟨rfl, hl⟩

/-- What a step that is performed on tied objects leaves behind. -/
structure Tied.Steps (w v : World) (σ : Nat → Nat) (t : Peers) (tie : Tie) (a b a' b' : World) :
    Prop where
  left : a.Besides (· = t.store) a'
  right : b.Besides (· = t.store') b'
  grown : a.GrownAlike b a' b'
  names : a'.names = a.names ∧ b'.names = b.names
  tied : ∃ tie', Tied w v σ t tie' a' b' ∧
    ∀ m, tie'.Owns a' m → tie.Owns a m ∨ b.cells.length ≤ m

theorem Preserved.names {owned : Nat → Prop} {settable : Prop} {b w : World}
    (h : Preserved owned settable b w) : w.names = b.names := by
  have hrest := congrArg World.names h.rest
  exact hrest

theorem Tied.steps (h : Tied w v σ t tie a b) (hl : (t.link w tie a b).Linked a' b') :
    Tied.Steps w v σ t tie a b a' b' := by
  have hright : (fun n => n = (t.link w tie a b).ρ.cell (t.link w tie a b).store) =
      (· = t.store') := funext fun n => by rw [← h.store]; rfl
  have hleft : a.Besides (· = t.store) a' := hl.left.besides
  have hright : b.Besides (· = t.store') b' := by
    have := hl.right.besides
    rwa [hright] at this
  have hgrown := h.linked.shiftsUp.grownAlike hl.shiftsUp hleft
  have hfits := h.fits.grownAlike h.linked.shiftsUp hgrown
  have hw := h.hosts.extends_left hl
  have hv := h.hosts.extends_right hl
  have hstays : b'.Besides (fun _ => False) b' := (World.Extends.refl b').besides _
  have hlinked : (t.link w tie a b).Linked a' b' := hl
  obtain ⟨tie', ht, howns⟩ : ∃ tie', Tied w v σ t tie' a' b' ∧ ∀ m, tie'.Owns a' m → tie.Owns a' m :=
    Peers.tied h.alike hlinked hw hv (World.Extends.refl a') hstays hfits h.routine
      (Nat.lt_of_lt_of_le h.stored hleft.cells_le) h.left_store h.right_store h.store
      fun _ _ => id
  refine ⟨hleft, hright, hgrown, ⟨hl.left.names, hl.right.names⟩, tie', ht, fun m hm => ?_⟩
  obtain ⟨n, hn, -, rfl⟩ := howns m hm
  rcases Nat.lt_or_ge n a.cells.length with hlt | hge
  · exact .inl ⟨n, hn, hlt, rfl⟩
  · obtain ⟨j, rfl⟩ := Nat.exists_eq_add_of_le hge
    have hshift : tie.ρ.cell (a.cells.length + j) = b.cells.length + j := h.linked.cell_shift j
    rw [hshift]
    exact .inr (Nat.le_add_right _ _)

end Tying

namespace World

theorem Ahead.besides {a b b' : World} {changed : Nat → Prop} (h : a.Ahead b id)
    (hb : b.Besides changed b') : a.Ahead b' id where
  cells := Nat.le_trans h.cells hb.cells_le
  routines r hr := Nat.lt_of_lt_of_le (h.routines r hr) hb.handles.length_le
  injective := h.injective
  marks := Nat.le_trans h.marks hb.marks
  logFrom := hb.logFrom.trans h.logFrom

theorem Ahead.grownAlike {a b a' b' : World} (h : a.Ahead b id) (hg : a.GrownAlike b a' b')
    (ha : a'.logFrom = a.logFrom) (hb : b'.logFrom = b.logFrom) : a'.Ahead b' id := by
  obtain ⟨k, hk, hk'⟩ := hg.cells
  obtain ⟨l, hl, hl'⟩ := hg.handles
  obtain ⟨m, hm, hm'⟩ := hg.marks
  have hcells := h.cells
  have hmarks := h.marks
  refine ⟨by omega, fun r hr => ?_, h.injective, by omega, by rw [ha, hb, h.logFrom]⟩
  have hhandles : a.handles.length ≤ b.handles.length := by
    rcases Nat.lt_or_ge b.handles.length a.handles.length with hlt | hge
    · exact absurd (h.routines _ hlt) (Nat.lt_irrefl _)
    · exact hge
  show r < b'.handles.length
  omega

theorem Extends.ahead {w a b : World} (h : w.Extends a) (ha : a.Ahead b id) : w.Ahead b id where
  cells := Nat.le_trans h.cells.length_le ha.cells
  routines r hr := ha.routines r (Nat.lt_of_lt_of_le hr h.handles.length_le)
  injective := ha.injective
  marks := Nat.le_trans h.marks ha.marks
  logFrom := ha.logFrom.trans h.logFrom

/-- What functions of one world stand for in another one, others standing for themselves. -/
structure Permutes (σ : Nat → Nat) (w v : World) : Prop where
  injective : Function.Injective σ
  below : ∀ r, r < w.handles.length → σ r < v.handles.length
  above : ∀ r, w.handles.length ≤ r → σ r = r

theorem Permutes.ahead {w v a b : World} {σ : Nat → Nat} (h : Permutes σ w v) (hv : v.Extends b)
    (ha : a.Ahead b id) : a.Ahead b σ where
  cells := ha.cells
  routines r hr := by
    rcases Nat.lt_or_ge r w.handles.length with hlt | hge
    · exact Nat.lt_of_lt_of_le (h.below r hlt) hv.handles.length_le
    · rw [h.above r hge]
      exact ha.routines r hr
  injective := h.injective
  marks := ha.marks
  logFrom := ha.logFrom

def namesWith (w : World) (i : String) (o : Nat) : Names :=
  { w.names with objects := Table.insert i (objectValue o) w.objectIds }

theorem namesWith_congr {w b : World} (h : w.names = b.names) (i : String) (o : Nat) :
    w.namesWith i o = b.namesWith i o := by
  unfold namesWith
  rw [h, show w.objectIds = b.objectIds from congrArg Names.objects h]

theorem extends_named (w : World) (names : Names) : w.Extends (w.named names) :=
  { World.Extends.refl w with }

theorem Ahead.fits {a b : World} {σ : Nat → Nat} (h : a.Ahead b σ) : h.toRenaming.Fits a b where
  cell _ hn := lt_of_eq_of_lt (shifted_below hn) (Nat.lt_of_lt_of_le hn h.cells)
  routine r hr := lt_of_eq_of_lt (moved_below hr) (h.routines r hr)
  mark _ hk := lt_of_eq_of_lt (shifted_below hk) (Nat.lt_of_lt_of_le hk h.marks)

end World

namespace Session

variable {w v a b : World} {σ : Nat → Nat} {t : Peers} {tie : Tie} {i name : String}

theorem perform_callObject (h : Tied w v σ t tie a b) (hn : w.Callable v σ t.cls t.cls' name)
    (hi : Table.find? a.objectIds i = some (objectValue t.self))
    (hi' : Table.find? b.objectIds i = some (objectValue t.self')) (args : List Literal)
    (named : Literal.Rows) :
    (perform a (.callObject i name args named)).1.outcome.map Answer.unmarked =
        (perform b (.callObject i name args named)).1.outcome.map Answer.unmarked ∧
      Tied.Steps w v σ t tie a b (perform a (.callObject i name args named)).2
        (perform b (.callObject i name args named)).2 := by
  have hl := h.linked.log [] []
  have hrun := Link.callAttribute_agree (e := (t.link w tie a b).extent { a with log := [] }) h.hosts
    h.alike 997 (h.called hn) args named _ _ hl (Extent.Below.refl _)
  have told := hrun.told (by
    show b.className (.made t.cls') = a.className (.made t.cls)
    rw [World.className_congr h.right.classes, World.className_congr h.left.classes,
      h.alike.className])
  have hleft := exec_callObject (w := { a with log := [] }) hi name args named
  have hright := exec_callObject (w := { b with log := [] }) hi' name args named
  have houtcome (w : World) (step : Step) : (perform w step).1.outcome =
      (outcome (machine.step step) { w with log := [] }).1 := rfl
  rw [perform_eq, perform_eq, houtcome, houtcome, World.outcome_eq, World.outcome_eq, hleft, hright]
  exact ⟨told.1, h.steps told.2⟩

/-! ## New peers -/

/-- What two steps leave behind that make objects, of which none may have been named. -/
structure Makes (w v : World) (σ : Nat → Nat) (c c' : Nat) (i : String) (a b a' b' : World) :
    Prop where
  left : a.Extends a'
  right : b.Extends b'
  grown : a.GrownAlike b a' b'
  named : (a'.names = a.names ∧ b'.names = b.names) ∨
    ∃ t tie, t.cls = c ∧ t.cls' = c' ∧ Tied w v σ t tie a' b' ∧
      a'.names = World.namesWith a i t.self ∧ b'.names = World.namesWith b i t.self' ∧
      ∀ m, tie.Owns a' m → b.cells.length ≤ m

theorem namesWith_others {w w' : World} (h : w'.names = w.names ∨ ∃ o, w'.names = w.namesWith i o) :
    w'.classIds = w.classIds ∧ w'.definitionIds = w.definitionIds ∧
      ∀ j, j ≠ i → Table.find? w'.objectIds j = Table.find? w.objectIds j := by
  rcases h with h | ⟨o, h⟩
  · refine ⟨congrArg World.Names.classes h, congrArg World.Names.definitions h, fun j _ => ?_⟩
    rw [show w'.objectIds = w.objectIds from congrArg World.Names.objects h]
  · refine ⟨congrArg World.Names.classes h, congrArg World.Names.definitions h, fun j hj => ?_⟩
    rw [show w'.objectIds = Table.insert i (objectValue o) w.objectIds from
      congrArg World.Names.objects h, Table.find?_insert, if_neg hj.symm]

theorem Makes.leftNames {c c' : Nat} {a' b' : World} (h : Makes w v σ c c' i a b a' b') :
    a'.classIds = a.classIds ∧ a'.definitionIds = a.definitionIds ∧
      ∀ j, j ≠ i → Table.find? a'.objectIds j = Table.find? a.objectIds j :=
  namesWith_others (h.named.imp And.left fun ⟨t, _, _, _, _, hn, _⟩ => ⟨t.self, hn⟩)

theorem Makes.rightNames {c c' : Nat} {a' b' : World} (h : Makes w v σ c c' i a b a' b') :
    b'.classIds = b.classIds ∧ b'.definitionIds = b.definitionIds ∧
      ∀ j, j ≠ i → Table.find? b'.objectIds j = Table.find? b.objectIds j :=
  namesWith_others (h.named.imp And.right fun ⟨t, _, _, _, _, _, hn, _⟩ => ⟨t.self', hn⟩)

theorem prepare_alike {c c' d d' : Nat} {apart : Nat → Prop}
    (hs : w.ExecutesAlike v σ c c' d d' apart) (hw : w.Extends a) (hv : v.Extends b)
    (hg : a.Ahead b σ) (k : Nat) :
    (hg.meeting w c c' (fun r => w.Shows d "execute_block" (routineValue r)) apart a b).Alike
      Link.Equal (a.withObject c) (b.withObject c')
      ((Machine.nested k).prepare (objectValue a.objects.length) [] [])
      ((Machine.nested k).prepare (objectValue b.objects.length) [] []) := by
  have hl := meeting_linked hw hv hg hg.linked hs.helpers
  exact Link.prepare_agree (Link.faithful_nested _ k) trivial _ _ hl (Extent.Below.refl _)

theorem tied_new {c c' d d' : Nat} {apart : Nat → Prop} {a₁ b₁ a₂ b₂ : World}
    (hs : w.ExecutesAlike v σ c c' d d' apart) (hw : w.Extends a) (hv : v.Extends b)
    (hg : a.Ahead b σ)
    (hl : (hg.meeting w c c' (fun r => w.Shows d "execute_block" (routineValue r)) apart a b).Linked
      a₁ b₁) (ha : a₁.Extends a₂) (hb : b₁.Extends b₂) (hg' : a.GrownAlike b a₂ b₂) :
    ∃ tie, Tied w v σ ⟨c, c', d, d', apart, a.objects.length, b.objects.length, a.cells.length,
      b.cells.length⟩ tie a₂ b₂ ∧ ∀ m, tie.Owns a₂ m → b.cells.length ≤ m := by
  have hstore : hg.toRenaming.cell a.cells.length = b.cells.length := shifted_add _ _ 0
  have hleft : w.Extends a₁ :=
    hl.left.holds (hw.trans (a.grown_withObject c).holds) fun n hn => hn ▸ hw.cells.length_le
  have hright : v.Extends b₁ := by
    refine hl.right.holds (hv.trans (b.grown_withObject c').holds) fun n hn => ?_
    rw [show n = b.cells.length from hn.trans hstore]
    exact hv.cells.length_le
  have hstored : a.cells.length < a₁.cells.length := by
    refine Nat.lt_of_lt_of_le ?_ hl.left.cells_le
    show a.cells.length < (a.cells ++ [Value.dict []]).length
    simp
  let peers : Peers :=
    ⟨c, c', d, d', apart, a.objects.length, b.objects.length, a.cells.length, b.cells.length⟩
  let tie₁ : Tie := ⟨hg.toRenaming, (a.cells.length ≤ ·), (a.handles.length ≤ ·)⟩
  have hbesides : b₁.Besides (fun _ => False) b₂ := hb.besides _
  obtain ⟨tie, ht, howns⟩ : ∃ tie, Tied w v σ peers tie a₂ b₂ ∧
      ∀ m, tie.Owns a₂ m → tie₁.Owns a₁ m :=
    Peers.tied hs hl hleft (hright.trans hb) ha hbesides
      (hg.fits.grownAlike hg.linked.shiftsUp hg')
      (fun k hk => moved_below (Nat.lt_of_lt_of_le hk hw.handles.length_le)) hstored
      hw.cells.length_le hv.cells.length_le hstore fun _ _ => id
  refine ⟨tie, ht, fun m hm => ?_⟩
  obtain ⟨n, hn, -, rfl⟩ := howns m hm
  obtain ⟨j, rfl⟩ := Nat.exists_eq_add_of_le (show a.cells.length ≤ n from hn)
  show b.cells.length ≤ shifted a.cells.length b.cells.length (a.cells.length + j)
  rw [shifted_add]
  exact Nat.le_add_right _ _

theorem makes_linked {c c' : Nat} {block apart : Nat → Prop} {a₁ b₁ : World} (hg : a.Ahead b σ)
    (hl : (hg.meeting w c c' block apart a b).Linked a₁ b₁) (i : String) :
    Makes w v σ c c' i a b a₁ b₁ := by
  have hstore : hg.toRenaming.cell a.cells.length = b.cells.length := shifted_add _ _ 0
  have hleft : a.Extends a₁ :=
    hl.left.holds (a.grown_withObject c).holds fun n hn => Nat.le_of_eq hn.symm
  have hright : b.Extends b₁ :=
    hl.right.holds (b.grown_withObject c').holds fun n hn => Nat.le_of_eq (hn.trans hstore).symm
  exact {
    left := hleft
    right := hright
    grown := hg.linked.shiftsUp.grownAlike hl.shiftsUp (hleft.besides fun _ => False)
    named := .inl ⟨hl.left.names, hl.right.names⟩ }

/-- Steps that make objects of two classes that execute alike have the same outcome, and leave the
objects tied that they name. -/
theorem perform_new_alike {c c' d d' : Nat} {apart : Nat → Prop} {cls cls' : String}
    (hs : w.ExecutesAlike v σ c c' d d' apart) (hw : w.Extends a) (hv : v.Extends b)
    (hg : a.Ahead b σ) (hc : Table.find? a.classIds cls = some (.made c))
    (hc' : Table.find? b.classIds cls' = some (.made c')) (i : String) :
    (perform a (.new i cls)).1.outcome = (perform b (.new i cls')).1.outcome ∧
      Makes w v σ c c' i a b (perform a (.new i cls)).2 (perform b (.new i cls')).2 := by
  let a₀ : World := { a with log := [] }
  let b₀ : World := { b with log := [] }
  have hw₀ : w.Extends a₀ := { hw with }
  have hv₀ : v.Extends b₀ := { hv with }
  have hg₀ : a₀.Ahead b₀ σ := { hg with }
  have hleft := exec_new (w := a₀) hc ((World.isOpen_congr hw.classes _).trans hs.left.opens)
    (fun k x => World.find?_congr hw.classes _ _ ▸ hs.left.makes k x) i
  have hright := exec_new (w := b₀) hc' ((World.isOpen_congr hv.classes _).trans hs.right.opens)
    (fun k x => World.find?_congr hv.classes _ _ ▸ hs.right.makes k x) i
  have halike := prepare_alike hs hw₀ hv₀ hg₀ 998
  have houtcome (w : World) (step : Step) : (perform w step).1.outcome =
      (outcome (machine.step step) { w with log := [] }).1 := rfl
  rw [perform_eq, perform_eq, houtcome, houtcome, World.outcome_eq, World.outcome_eq, hleft, hright,
    Run.exec_bind, Run.exec_bind]
  unfold Link.Alike at halike
  generalize ((Machine.nested 998).prepare (objectValue a₀.objects.length) [] []).exec
    (a₀.withObject c) = x at halike ⊢
  generalize ((Machine.nested 998).prepare (objectValue b₀.objects.length) [] []).exec
    (b₀.withObject c') = y at halike ⊢
  cases halike with
  | @ok _ _ a₁ b₁ hl _ _ =>
    have hmade := makes_linked (v := v) hg₀ hl i
    obtain ⟨tie, ht, howns⟩ := tied_new hs hw₀ hv₀ hg₀ hl
      (World.extends_named a₁ (a₁.namesWith i a.objects.length))
      (World.extends_named b₁ (b₁.namesWith i b.objects.length)) { hmade.grown with }
    refine ⟨rfl, ⟨{ hmade.left with }, { hmade.right with }, { hmade.grown with }, .inr ?_⟩⟩
    exact ⟨_, tie, rfl, rfl, ht, World.namesWith_congr hl.left.names i _,
      World.namesWith_congr hl.right.names i _, howns⟩
  | error hl _ hf =>
    obtain rfl := hf.eq (by
      show b.className (.made c') = a.className (.made c)
      rw [World.className_congr hw.classes, World.className_congr hv.classes, hs.className])
    have hmade := makes_linked (v := v) hg₀ hl i
    exact ⟨rfl, ⟨{ hmade.left with }, { hmade.right with }, { hmade.grown with },
      .inl ⟨hl.left.names, hl.right.names⟩⟩⟩

end Session

end Toolwright
