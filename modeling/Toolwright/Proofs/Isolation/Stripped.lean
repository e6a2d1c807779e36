import Toolwright.Proofs.Declaration.Building

/-!
# Worlds without helpers

A world can be stripped of the helpers of one class: the class holds no attribute of their names, and
the tables in which a definition keeps them are empty. A computation that touches neither of these
does the same in the stripped world, but for what it logs.
-/

namespace Toolwright

set_option autoImplicit false

/-- Where the helpers of a definition are: in two tables, and in a class under their names. -/
structure HelperSites where
  ofInstance : Nat
  ofClass : Nat
  cls : Nat
  names : List String

def HelperSites.Spares (s : HelperSites) (n : Nat) : Prop := n ≠ s.ofInstance ∧ n ≠ s.ofClass

def HostClass.lacking (cls : HostClass) (names : List String) : HostClass :=
  { cls with attributes := cls.attributes.filter fun row => !names.contains row.1 }

namespace World

/-- The world without what is at the sites of helpers, and with another log. -/
def stripped (w : World) (s : HelperSites) (log : List Record) : World :=
  { w with
    classes := w.classes.modify s.cls (·.lacking s.names)
    cells := (w.cells.set s.ofInstance (.dict [])).set s.ofClass (.dict [])
    log := log }

def HasSites (b : World) (s : HelperSites) : Prop :=
  s.ofInstance < b.cells.length ∧ s.ofClass < b.cells.length

theorem HasSites.mono {b u : World} {s : HelperSites} (h : b.HasSites s)
    (hl : b.cells.length ≤ u.cells.length) : u.HasSites s :=
  ⟨Nat.lt_of_lt_of_le h.1 hl, Nat.lt_of_lt_of_le h.2 hl⟩

variable {w v u : World} {s : HelperSites} {c : ClassRef} {n : Nat} {name : String} {C : Nat → Prop}
  {log : List Record}

/-! ## Cells -/

theorem cells_stripped (hn : s.Spares n) : (w.stripped s log).cells[n]? = w.cells[n]? := by
  show ((w.cells.set _ _).set _ _)[n]? = _
  rw [List.getElem?_set_ne (Ne.symm hn.2), List.getElem?_set_ne (Ne.symm hn.1)]

theorem length_cells_stripped (w : World) (s : HelperSites) (log : List Record) :
    (w.stripped s log).cells.length = w.cells.length := by
  show ((w.cells.set _ _).set _ _).length = _
  rw [List.length_set, List.length_set]

theorem cells_stripped_congr (h : w.cells[n]? = v.cells[n]?) :
    (w.stripped s log).cells[n]? = (v.stripped s log).cells[n]? := by
  show ((w.cells.set _ _).set _ _)[n]? = ((v.cells.set _ _).set _ _)[n]?
  rw [List.getElem?_set', List.getElem?_set', List.getElem?_set', List.getElem?_set', h]

theorem cell_stripped (hn : s.Spares n) : (w.stripped s log).cell n = w.cell n := by
  unfold cell
  rw [cells_stripped hn]

theorem retains_stripped (hC : ∀ n, C n → s.Spares n) : w.Retains (w.stripped s log) C where
  cells n hn := cells_stripped (hC n hn)
  cells_le := Nat.le_of_eq (length_cells_stripped w s log).symm
  handles_le := Nat.le_refl _
  marks_le := Nat.le_refl _
  logFrom := rfl

/-! ## Classes -/

theorem hostClass_stripped (n : Nat) :
    (w.stripped s log).classes[n]? =
      (w.classes[n]?).map fun cls => if s.cls = n then cls.lacking s.names else cls :=
  List.getElem?_modify ..

/-- What is said of classes by anything but their attributes is said as before. -/
theorem map_hostClass_stripped {α : Type} (f : HostClass → α)
    (hf : ∀ cls : HostClass, f (cls.lacking s.names) = f cls) (n : Nat) :
    ((w.stripped s log).classes[n]?).map f = (w.classes[n]?).map f := by
  rw [hostClass_stripped, Option.map_map]
  refine congrArg (Option.map · _) (funext fun cls => ?_)
  show f (if s.cls = n then cls.lacking s.names else cls) = f cls
  split
  · exact hf cls
  · rfl

theorem own?_stripped :
    (w.stripped s log).own? c name =
      if c = .made s.cls ∧ name ∈ s.names then none else w.own? c name := by
  cases c with
  | builtIn k => rfl
  | made n =>
    simp only [own?, hostClass_stripped, ClassRef.made.injEq]
    cases w.classes[n]? with
    | none => simp
    | some cls =>
      simp only [Option.map_some, Option.bind_some]
      by_cases hn : s.cls = n
      · rw [if_pos hn, show Table.find? (cls.lacking s.names).attributes name = _ from
          Table.find?_filter (fun key => !s.names.contains key) _ _]
        simp [hn]
      · rw [if_neg hn, if_neg fun h => hn h.1.symm]

theorem above_stripped (c : ClassRef) : (w.stripped s log).above c = w.above c := by
  cases c with
  | builtIn k => rfl
  | made n =>
    exact congrArg (Option.getD · []) (map_hostClass_stripped (·.lineage) (fun _ => rfl) n)

theorem lineage_stripped (c : ClassRef) : (w.stripped s log).lineage c = w.lineage c :=
  congrArg (c :: ·) (above_stripped c)

theorem className_stripped (c : ClassRef) : (w.stripped s log).className c = w.className c := by
  cases c with
  | builtIn k => rfl
  | made n => exact congrArg (Option.getD · "") (map_hostClass_stripped (·.name) (fun _ => rfl) n)

theorem qualifiedName_stripped (c : ClassRef) :
    (w.stripped s log).qualifiedName c = w.qualifiedName c := by
  cases c with
  | builtIn k => rfl
  | made n =>
    exact congrArg (Option.getD · "") (map_hostClass_stripped (·.qualifiedName) (fun _ => rfl) n)

theorem isOpen_stripped (c : ClassRef) : (w.stripped s log).isOpen c = w.isOpen c := by
  unfold isOpen
  rw [lineage_stripped]
  refine congrArg (List.any _) (funext fun holder => ?_)
  cases holder with
  | builtIn k => rfl
  | made n =>
    exact congrArg (Option.getD · false) (map_hostClass_stripped (·.isOpen) (fun _ => rfl) n)

/-- A class finds what it found, but for what the stripped class held under the names. -/
theorem find?_stripped (h : .made s.cls ∈ w.lineage c → name ∉ s.names) :
    (w.stripped s log).find? c name = w.find? c name := by
  unfold find?
  rw [lineage_stripped, ← List.head?_filterMap, ← List.head?_filterMap]
  refine congrArg List.head? (List.filterMap_congr fun holder hholder => ?_)
  rw [own?_stripped, if_neg]
  rintro ⟨rfl, hn⟩
  exact h hholder hn

/-- Where nothing above the stripped class holds a name of a helper, the class finds nothing there. -/
theorem find?_stripped_none (hn : name ∈ s.names)
    (h : ∀ holder ∈ w.above (.made s.cls), holder ≠ .made s.cls → w.own? holder name = none) :
    (w.stripped s log).find? (.made s.cls) name = none := by
  unfold find?
  rw [lineage_stripped, List.findSome?_eq_none_iff]
  intro holder hholder
  rw [own?_stripped]
  split
  · rfl
  · next hs =>
    have hne : holder ≠ .made s.cls := fun he => hs ⟨he, hn⟩
    rw [h holder ((List.mem_cons.mp hholder).resolve_left hne) hne]
    rfl

theorem reached_stripped (holder cls : ClassRef) (self : Option Value) (a : Attribute) :
    (w.stripped s log).reached holder cls self a = w.reached holder cls self a := by
  cases a <;> simp only [reached, className_stripped]
  rfl

/-- What a class holds for a helper. -/
inductive HelperAttribute : Attribute → Prop
  | ofInstance (f : Function) : HelperAttribute (.ofObject f)
  | ofClass (x : Value) : HelperAttribute (.fixed x)

/-- What is at the sites are helpers: the class holds them under names that no class above it has and
that the language does not use itself. -/
structure Helped (w : World) (s : HelperSites) : Prop where
  sites : w.HasSites s
  rooted : w.Rooted (.made s.cls)
  free : ∀ name ∈ s.names, name.startsWith "__" = false
  held : ∀ name ∈ s.names, ∃ a, w.own? (.made s.cls) name = some a ∧ HelperAttribute a
  above : ∀ name ∈ s.names, ∀ holder ∈ w.above (.made s.cls), w.own? holder name = none

namespace Helped

theorem later {own : Nat → Prop} (h : w.Helped s) (hl : w.Later v own) : v.Helped s where
  sites := h.sites.mono hl.cells_le
  rooted := hl.rooted h.rooted
  free := h.free
  held name hn := by
    rw [hl.own? (by rintro n ⟨⟩; exact h.rooted _ List.mem_cons_self)]
    exact h.held name hn
  above name hn holder hh := by
    have hlineage : holder ∈ w.lineage (.made s.cls) := by
      rw [← hl.lineage h.rooted]
      exact List.mem_cons_of_mem _ hh
    have habove : holder ∈ w.above (.made s.cls) := by
      have heq := congrArg List.tail (hl.lineage h.rooted)
      have heq : v.above (.made s.cls) = w.above (.made s.cls) := heq
      rwa [← heq]
    rw [hl.own? fun n he => h.rooted n (he ▸ hlineage)]
    exact h.above name hn holder habove

theorem find?_stripped (h : w.Helped s) (log : List Record) (name : String) :
    (w.stripped s log).find? (.made s.cls) name = w.find? (.made s.cls) name ∨
      ∃ a, HelperAttribute a ∧ w.find? (.made s.cls) name = some (.made s.cls, a) ∧
        (w.stripped s log).find? (.made s.cls) name = none := by
  by_cases hn : name ∈ s.names
  · obtain ⟨a, ha, hhelper⟩ := h.held name hn
    refine .inr ⟨a, hhelper, ?_, find?_stripped_none hn fun holder hh _ => h.above name hn holder hh⟩
    unfold find?
    rw [lineage, List.findSome?_cons, ha]
    rfl
  · exact .inl (World.find?_stripped fun _ => hn)

theorem find?_reserved (h : w.Helped s) (log : List Record) (c : ClassRef) {name : String}
    (hn : name.startsWith "__" = true) :
    (w.stripped s log).find? c name = w.find? c name := by
  refine World.find?_stripped fun _ hmem => ?_
  have hfree := h.free name hmem
  rw [hn] at hfree
  cases hfree

end Helped

/-! ## What is done to both -/

theorem put_stripped (hn : s.Spares n) (x : Value) : (w.stripped s log).put n x = (w.put n x).stripped s log := by
  unfold put stripped
  dsimp only
  rw [List.set_comm _ _ (Ne.symm hn.2), List.set_comm _ _ (Ne.symm hn.1)]

theorem withCell_stripped (h : w.HasSites s) (x : Value) : (w.stripped s log).withCell x = (w.withCell x).stripped s log := by
  unfold withCell stripped
  dsimp only
  rw [List.set_append_left _ _ h.1, List.set_append_left _ _ (by rw [List.length_set]; exact h.2)]

end World

/-! ## Data in both worlds -/

namespace World

/-- Where as much is in both worlds, what is new in the one stands for the same in the other. -/
theorem link_same {w v : World} {C : Nat → Prop} (h : w.Retains v C)
    (hc : v.cells.length = w.cells.length) (hh : v.handles.length = w.handles.length)
    (hm : v.marks = w.marks) : h.link.ρ = .same := by
  have same (n : Nat) : shifted n n = id := by
    funext k
    unfold shifted moved
    split
    · rfl
    · show n + (k - n) = k
      omega
  show h.toRenaming = .same
  unfold Retains.toRenaming Renaming.same
  simp only [hc, hh, hm, same]

/-- A link on which everything stands for itself, and nothing but objects gets attributes. -/
structure Level (b : World) (L : Link) : Prop where
  same : L.ρ = .same
  sealed : L.settable = False
  left : L.left.world.extras = b.extras
  right : L.right.world.extras = b.extras

/-- Worlds that a world and the stripped one are led to by computations on data are alike. -/
theorem linked_stripped {s : HelperSites} {u v v' : World} {E : Nat → Prop} {log : List Record}
    {h : u.Retains (u.stripped s log) E} (hs : u.HasSites s) (hl : h.link.Linked v v')
    (hρ : h.link.ρ = .same) : v' = v.stripped s v'.log := by
  have hcells : v'.cells = (v.stripped s log).cells := by
    refine List.ext_getElem? fun n => ?_
    by_cases hn : n < u.cells.length
    · have left : v.cells[n]? = u.cells[n]? := hl.left.cells n hn (Nat.ne_of_lt hn)
      have right := hl.right.cells n (Nat.lt_of_lt_of_eq hn (length_cells_stripped u s log).symm) (by
        rw [hρ]
        exact Nat.ne_of_lt hn)
      exact right.trans (cells_stripped_congr left.symm)
    · have hn := Nat.le_of_not_lt hn
      have kept := hl.cells n (.inr hn)
      rw [hρ] at kept
      rw [cells_stripped ⟨by have := hs.1; omega, by have := hs.2; omega⟩]
      exact kept.trans (by cases v.cells[n]? <;> simp [Value.rename_same])
  have hhandles : v'.handles = v.handles := by
    have length : v.handles.length = v'.handles.length := by
      have := hl.routine_shift 0
      rwa [hρ] at this
    refine List.ext_getElem? fun r => ?_
    by_cases hr : r < u.handles.length
    · exact (hl.right.handles r hr).trans (hl.left.handles r hr).symm
    · have none : v.handles.length ≤ r := by
        by_contra hlt
        obtain ⟨_, hh, -⟩ := hl.handles r (Nat.le_of_not_lt hr) (Nat.lt_of_not_le hlt)
        exact hh
      rw [List.getElem?_eq_none none, List.getElem?_eq_none (Nat.le_trans (Nat.le_of_eq length.symm) none)]
  have hmarks := hl.mark_shift 0
  rw [hρ] at hmarks
  have hextras := hl.left.extras.resolve_left id
  have hextras' := hl.right.extras.resolve_left id
  have left := hl.left.rest
  have right := congrArg (fun w : World => { w with
    cells := v'.cells, handles := v'.handles, extras := v'.extras, marks := v'.marks, log := v'.log })
    hl.right.rest
  have left : { v with
    cells := u.cells, handles := u.handles, extras := u.extras, marks := u.marks, log := u.log } = u := left
  have hcls : u.classes = v.classes := hl.left.classes.symm
  have right : v' = { u with
    classes := u.classes.modify s.cls (·.lacking s.names), cells := v'.cells, handles := v'.handles,
    extras := v'.extras, marks := v'.marks, log := v'.log } := right
  rw [← left, hhandles, show v'.marks = v.marks from hmarks.symm, hcells, hextras'.trans hextras.symm] at right
  exact right

end World

/-! ## Computations without helpers -/

/-- What a computation can get hold of: data, and the first objects. -/
structure Stage where
  extent : Extent
  objects : Nat

namespace Stage

structure Below (e e' : Stage) : Prop where
  extent : e.extent.Below e'.extent
  objects : e.objects ≤ e'.objects

theorem Below.refl (e : Stage) : e.Below e := ⟨.refl _, Nat.le_refl _⟩

theorem Below.trans {e e' e'' : Stage} (h : e.Below e') (h' : e'.Below e'') : e.Below e'' :=
  ⟨h.extent.trans h'.extent, Nat.le_trans h.objects h'.objects⟩

end Stage

namespace World

def stage (w : World) (E : Nat → Prop) : Stage := ⟨w.data E, w.objects.length⟩

/-- A world in which objects of a class were made since, and used with plain data. -/
structure Uses (b : World) (n : Nat) (u : World) (E : Nat → Prop) : Prop where
  later : b.Later u (fun _ => False)
  data : u.HoldsData E
  fresh : ∀ k, E k → b.cells.length ≤ k
  objects : ∀ o obj, b.objects.length ≤ o → u.objects[o]? = some obj →
    obj.cls = .made n ∧ ∃ k, obj.attributes = some k ∧ E k

theorem Uses.spares {b u : World} {s : HelperSites} {E : Nat → Prop} (hs : b.HasSites s)
    (h : b.Uses s.cls u E) (n : Nat) (hn : E n) : s.Spares n := by
  have hb := h.fresh n hn
  exact ⟨by have := hs.1; omega, by have := hs.2; omega⟩

theorem Uses.gains {b u v : World} {n : Nat} {E : Nat → Prop} (h : b.Uses n u E) (hg : u.Gains E v)
    (ho : v.objects = u.objects) : b.Uses n v (u.gained E v) where
  later := h.later.trans hg.later fun _ hn _ => hn
  data := hg.data
  fresh k hk := hk.1.elim (h.fresh k) (Nat.le_trans h.later.cells_le)
  objects o obj hb hobj := by
    rw [ho] at hobj
    obtain ⟨hc, k, hk, hE⟩ := h.objects o obj hb hobj
    exact ⟨hc, k, hk, .inl hE, Nat.lt_of_lt_of_le (h.data.lt hE) hg.later.cells_le⟩

/-! ## What is made and changed -/

section Changes

variable {b u : World} {n o k : Nat} {s : HelperSites} {E : Nat → Prop} {x : Value} {e e' : Stage}

def Made (b : World) (e : Stage) (o : Nat) : Prop := b.objects.length ≤ o ∧ o < e.objects

theorem Made.mono (h : b.Made e o) (he : e.Below e') : b.Made e' o :=
  ⟨h.1, Nat.lt_of_lt_of_le h.2 he.objects⟩

theorem Uses.made (h : b.Uses n u E) (ho : b.Made (u.stage E) o) :
    ∃ obj k, u.objects[o]? = some obj ∧ obj.cls = .made n ∧ obj.attributes = some k ∧ E k := by
  have hobj := List.getElem?_eq_getElem (show o < u.objects.length from ho.2)
  obtain ⟨hc, k, hk, hE⟩ := h.objects o _ ho.1 hobj
  exact ⟨_, k, hobj, hc, hk, hE⟩

theorem Uses.classOf (h : b.Uses n u E) (ho : b.Made (u.stage E) o) :
    u.classOf (objectValue o) = .made n := by
  obtain ⟨obj, k, hobj, hc, -, -⟩ := h.made ho
  simp only [objectValue, World.classOf, hobj, Option.map_some, Option.getD_some, hc]

theorem Uses.attributeCell? (h : b.Uses n u E) (ho : b.Made (u.stage E) o) :
    ∃ k, u.attributeCell? (objectValue o) = some k ∧ E k := by
  obtain ⟨obj, k, hobj, -, hk, hE⟩ := h.made ho
  exact ⟨k, by simp only [objectValue, World.attributeCell?, hobj, Option.bind_some, hk], hE⟩

theorem Uses.put (h : b.Uses n u E) (hk : E k) (hx : x.Within (u.data E)) :
    b.Uses n (u.put k x) E where
  later := h.later.put (.inr (h.fresh k hk)) x
  data j hj := by
    show ∃ y, (u.cells.set k x)[j]? = some y ∧ y.Within (u.data E)
    rw [List.getElem?_set, if_pos (h.data.lt hk)]
    split
    · exact ⟨x, rfl, hx⟩
    · exact h.data j hj
  fresh := h.fresh
  objects := h.objects

def modifyObject (w : World) (o : Nat) (f : HostObject → HostObject) : World :=
  { w with objects := w.objects.modify o f }

theorem Uses.modifyObject (h : b.Uses n u E) (ho : b.objects.length ≤ o)
    {f : HostObject → HostObject} (hf : ∀ obj : HostObject,
      (obj.cls = .made n ∧ ∃ k, obj.attributes = some k ∧ E k) →
        (f obj).cls = .made n ∧ ∃ k, (f obj).attributes = some k ∧ E k) :
    b.Uses n (u.modifyObject o f) E where
  later := { h.later with
    objects := by
      rw [List.prefix_iff_getElem?]
      intro i hi
      show (u.objects.modify o f)[i]? = _
      rw [List.getElem?_modify_ne _ _ (by omega)]
      exact getElem?_of_extended h.later.objects (List.getElem?_eq_getElem hi) }
  data := h.data
  fresh := h.fresh
  objects i obj hi hobj := by
    rw [World.modifyObject, List.getElem?_modify] at hobj
    obtain ⟨old, hold, rfl⟩ := Option.map_eq_some_iff.mp hobj
    have kept := h.objects i old hi hold
    split
    · exact hf old kept
    · exact kept

theorem stage_modifyObject (w : World) (o : Nat) (f : HostObject → HostObject) (E : Nat → Prop) :
    (w.modifyObject o f).stage E = w.stage E := by
  unfold stage World.modifyObject
  rw [List.length_modify]
  rfl

theorem Uses.newObject (h : b.Uses n u E) :
    b.Uses n { u.withCell (.dict []) with
        objects := u.objects ++ [⟨.made n, some u.cells.length, []⟩] }
      (fun k => E k ∨ k = u.cells.length) where
  later := (h.later.newCell (.dict [])).newObject _
  data k hk := by
    have hb : (u.data E).Below (u.data fun k => E k ∨ k = u.cells.length) :=
      u.data_mono fun _ => .inl
    rcases hk with hk | rfl
    · obtain ⟨x, hx, hw⟩ := h.data k hk
      exact ⟨x, getElem?_of_extended (List.prefix_append _ _) hx, hw.mono hb⟩
    · exact ⟨.dict [], getElem?_withCell u _, trivial⟩
  fresh k hk := hk.elim (h.fresh k) fun he => he ▸ h.later.cells_le
  objects o obj ho hobj := by
    rw [List.getElem?_append] at hobj
    split at hobj
    · obtain ⟨hc, k, hk, hE⟩ := h.objects o obj ho hobj
      exact ⟨hc, k, hk, .inl hE⟩
    · rw [List.getElem?_singleton] at hobj
      split at hobj
      · cases hobj
        exact ⟨rfl, _, rfl, .inr rfl⟩
      · cases hobj

end Changes

/-- A computation that uses no helpers: it does the same in the stripped world, but for what it logs,
and it leaves plain data. -/
def Unaided (b : World) (s : HelperSites) {α : Type} (e : Stage) (Q : Stage → α → Prop)
    (r : Run α) : Prop :=
  ∀ u E log, b.Uses s.cls u E → e.Below (u.stage E) → ∃ x v E' log',
    r.exec u = (x, v) ∧
      r.exec (u.stripped s log) = (x, v.stripped s log') ∧
      b.Uses s.cls v E' ∧ (u.stage E).Below (v.stage E') ∧ ∀ a, x = .ok a → Q (v.stage E') a

namespace Unaided

variable {α β : Type} {b : World} {s : HelperSites} {e e' : Stage} {Q : Stage → α → Prop}
  {R : Stage → β → Prop} {r : Run α} {k : α → Run β}

theorem returns {a : α} (h : ∀ e', e.Below e' → Q e' a) : b.Unaided s e Q (Pure.pure a) := by
  intro u E log hu he
  refine ⟨_, _, E, log, rfl, rfl, hu, .refl _, ?_⟩
  rintro _ ⟨⟩
  exact h _ he

theorem fails (f : Fault) : b.Unaided s e Q (throw f) :=
  fun _ E log hu _ => ⟨_, _, E, log, rfl, rfl, hu, .refl _, nofun⟩

theorem lift {x : Except Fault α} (h : ∀ a, x = .ok a → ∀ e', e.Below e' → Q e' a) :
    b.Unaided s e Q (Run.lift x) := by
  cases x with
  | error f => exact fails f
  | ok a => exact returns (h a rfl)

theorem weaken (h : b.Unaided s e Q r) (he : e.Below e') : b.Unaided s e' Q r :=
  fun u E log hu hb => h u E log hu (he.trans hb)

theorem bind (h : b.Unaided s e Q r)
    (hk : ∀ e' a, e.Below e' → Q e' a → b.Unaided s e' R (k a)) : b.Unaided s e R (r >>= k) := by
  intro u E log hu he
  obtain ⟨x, v, E₁, log₁, hr, hr', hv, hle, hq⟩ := h u E log hu he
  rw [Run.exec_bind, Run.exec_bind, hr, hr']
  cases x with
  | error f => exact ⟨_, _, E₁, log₁, rfl, rfl, hv, hle, nofun⟩
  | ok a =>
    obtain ⟨y, t, E₂, log₂, hk, hk', ht, hle', hq'⟩ :=
      hk _ a (he.trans hle) (hq a rfl) v E₁ log₁ hv (.refl _)
    exact ⟨y, t, E₂, log₂, hk, hk', ht, hle.trans hle', hq'⟩

theorem mono {Q' : Stage → α → Prop} (h : b.Unaided s e Q r)
    (hq : ∀ e' a, e.Below e' → Q e' a → Q' e' a) : b.Unaided s e Q' r := by
  intro u E log hu he
  obtain ⟨x, v, E₁, log₁, hr, hr', hv, hle, hx⟩ := h u E log hu he
  exact ⟨x, v, E₁, log₁, hr, hr', hv, hle, fun a ha => hq _ a (he.trans hle) (hx a ha)⟩

/-- A computation that goes, from each of the worlds it can start in, as another one does. -/
theorem of_exec (h : ∀ u E log, b.Uses s.cls u E → e.Below (u.stage E) → ∃ r' : Run α,
    r.exec u = r'.exec u ∧ r.exec (u.stripped s log) = r'.exec (u.stripped s log) ∧
      b.Unaided s (u.stage E) Q r') :
    b.Unaided s e Q r := by
  intro u E log hu he
  obtain ⟨r', heq, heq', hr⟩ := h u E log hu he
  obtain ⟨x, v, E₁, log₁, hrun, hrun', hv, hle, hx⟩ := hr u E log hu (.refl _)
  exact ⟨x, v, E₁, log₁, heq.trans hrun, heq'.trans hrun', hv, hle, hx⟩

theorem world {k : World → Run α}
    (h : ∀ u E, b.Uses s.cls u E → e.Below (u.stage E) →
      (∀ log, k (u.stripped s log) = k u) ∧ b.Unaided s (u.stage E) Q (k u)) :
    b.Unaided s e Q (Run.world >>= k) :=
  of_exec fun u E log hu he =>
    have hk := h u E hu he
    have heq : (k (u.stripped s log)).exec (u.stripped s log) = _ := by rw [hk.1 log]
    ⟨k u, rfl, heq, hk.2⟩

theorem change {f : World → World}
    (h : ∀ u E, b.Uses s.cls u E → e.Below (u.stage E) →
      (∀ log, f (u.stripped s log) = (f u).stripped s log) ∧ b.Uses s.cls (f u) E ∧
        (u.stage E).Below ((f u).stage E)) :
    b.Unaided s e (fun _ _ => True) (modify f) := by
  intro u E log hu he
  obtain ⟨heq, huses, hbelow⟩ := h u E hu he
  exact ⟨.ok (), f u, E, log, rfl, congrArg (Prod.mk _) (heq log), huses, hbelow, fun _ _ => trivial⟩

theorem of_agree {R : Link → Extent → α → α → Prop} {P : Extent → α → Prop} (hs : b.HasSites s)
    (h : ∀ L : Link, b.Level L → L.Agree e.extent (R L) r r)
    (hR : ∀ (L : Link) e' a a', b.Level L → R L e' a a' → a' = a ∧ P e' a)
    (hP : ∀ e e' a, e.Below e' → P e a → P e' a) :
    b.Unaided s e (fun e a => P e.extent a) r := by
  intro u E log hu he
  have hr : u.Retains (u.stripped s log) E := retains_stripped (hu.spares hs)
  have level : b.Level hr.link :=
    { same := link_same hr (length_cells_stripped u s log) rfl rfl
      sealed := rfl
      left := hu.later.extras
      right := hu.later.extras }
  have within : (u.data E).Below (hr.link.extent u) :=
    ⟨fun _ hn => ⟨.inl hn, hu.data.lt hn⟩, fun _ hr => hr.elim, Nat.le_refl _⟩
  have alike := h hr.link level _ _ (hr.linked hu.data) (he.extent.trans within)
  have holds := hs.mono hu.later.cells_le
  unfold Link.Alike at alike
  generalize hx : r.exec u = x at alike
  generalize hy : r.exec (u.stripped s log) = y at alike
  have goal {v v' : World} (hl : hr.link.Linked v v') : v' = v.stripped s v'.log ∧
      b.Uses s.cls v (u.gained E v) ∧ (u.stage E).Below (v.stage (u.gained E v)) ∧
      (hr.link.extent v).Below (v.data (u.gained E v)) := by
    obtain ⟨hg, hb⟩ := Gains.linked hl
    refine ⟨linked_stripped holds hl level.same, hu.gains hg hl.left.objects, ⟨hg.below hu.data, ?_⟩, hb⟩
    exact Nat.le_of_eq (congrArg List.length hl.left.objects).symm
  cases alike with
  | @ok a a' v v' hl _ hq =>
    obtain ⟨hv, huses, hbelow, hext⟩ := goal hl
    obtain ⟨rfl, hp⟩ := hR _ _ _ _ level hq
    refine ⟨_, v, _, v'.log, rfl, by rw [← hv], huses, hbelow, ?_⟩
    rintro _ ⟨⟩
    exact hP _ _ _ hext hp
  | @error f g v v' hl _ hf =>
    obtain ⟨hv, huses, hbelow, -⟩ := goal hl
    have fault : g = f := by
      cases hf with
      | same => rfl
      | ofObject name =>
        exact congrArg (fun c => Fault.noAttribute (.object c) name) (className_stripped (.made 0))
      | ofClass name =>
        exact congrArg (fun c => Fault.noAttribute (.cls c) name) (className_stripped (.made 0))
    exact ⟨_, v, _, v'.log, rfl, by rw [← hv, fault], huses, hbelow, nofun⟩

theorem mapM {f : α → Run β} (xs : List α)
    (hm : ∀ e e' a, e.Below e' → R e a → R e' a)
    (h : ∀ x ∈ xs, ∀ e', e.Below e' → b.Unaided s e' R (f x)) :
    b.Unaided s e (fun e ys => ∀ y ∈ ys, R e y) (xs.mapM f) := by
  induction xs generalizing e with
  | nil => exact returns fun _ _ => by simp
  | cons x xs ih =>
    rw [List.mapM_cons]
    refine bind (h x List.mem_cons_self e (.refl e)) fun e₁ y h₁ hy => ?_
    refine bind (ih fun x hx e' he => h x (List.mem_cons_of_mem _ hx) e' (h₁.trans he))
      fun e₂ ys h₂ hys => returns fun e₃ h₃ z hz => ?_
    rcases List.mem_cons.mp hz with rfl | hz
    · exact hm _ _ _ (h₂.trans h₃) hy
    · exact hm _ _ _ h₃ (hys z hz)

end Unaided

end World

end Toolwright
