import Toolwright.Host.Machine
import Toolwright.Proofs.Lockstep.Memory

/-!
# Lookups in linked worlds

What a world says of a value: its class, what is at its place, whether it can be a key. A value that
a run can get hold of is of a built-in class, which takes over nothing; the contexts of both runs
find the same helpers.
-/

namespace Toolwright

set_option autoImplicit false

/-! ## Lookups depend on the classes alone -/

namespace World

theorem find?_congr {w b : World} (h : w.classes = b.classes) (c : ClassRef) (name : String) :
    w.find? c name = b.find? c name := by
  unfold find? lineage above own?
  rw [h]

theorem own?_congr {w b : World} (h : w.classes = b.classes) (c : ClassRef) (name : String) :
    w.own? c name = b.own? c name := by
  unfold World.own?
  rw [h]

theorem className_congr {w b : World} (h : w.classes = b.classes) (c : ClassRef) :
    w.className c = b.className c := by
  unfold className
  rw [h]

theorem lineage_congr {w b : World} (h : w.classes = b.classes) (c : ClassRef) :
    w.lineage c = b.lineage c := by
  unfold lineage above
  rw [h]

theorem shape?_congr {w b : World} (h : w.classes = b.classes) (c : ClassRef) :
    w.shape? c = b.shape? c := by
  unfold shape? lineage above qualifiedName
  rw [h]

theorem find?_builtIn (w : World) (k : Kind) (name : String) :
    w.find? (.builtIn k) name =
      (k :: k.above).findSome? fun k => (k.attribute? name).map (.builtIn k, ·) := by
  unfold find? lineage above
  rw [← List.map_cons (f := ClassRef.builtIn), List.findSome?_map]
  rfl

theorem isBuiltIn?_find? (w : World) (k : Kind) (name : String) :
    w.find? (.builtIn k) name = none ∨ Link.isBuiltIn? (w.find? (.builtIn k) name) := by
  rw [find?_builtIn]
  cases h : (k :: k.above).findSome? fun k => (k.attribute? name).map (ClassRef.builtIn k, ·) with
  | none => exact .inl rfl
  | some found =>
    obtain ⟨k', _, hk'⟩ := List.exists_of_findSome?_eq_some h
    cases ha : k'.attribute? name with
    | none => rw [ha] at hk'; cases hk'
    | some a =>
      rw [ha] at hk'
      cases hk'
      exact .inr trivial

theorem find?_foreign (w : World) (k : Kind) {name : String} (h : Foreign name) :
    w.find? (.builtIn k) name = none := by
  rw [find?_builtIn, List.findSome?_eq_none_iff]
  intro k' _
  rw [h.1 k']
  rfl

theorem find?_null (w : World) {name : String} (ho : Kind.object.attribute? name = none)
    (hn : Kind.null.attribute? name = none) : w.find? (.builtIn .null) name = none := by
  rw [find?_builtIn]
  simp [Kind.above, ho, hn]

theorem find?_type (w : World) {name : String} (ho : Kind.object.attribute? name = none)
    (ht : Kind.type.attribute? name = none) : w.find? (.builtIn .type) name = none := by
  rw [find?_builtIn]
  simp [Kind.above, ho, ht]

/-- The methods of a built-in class are not taken over by a class that was made. -/
theorem special?_eq_none {w : World} {x : Value} {name : String}
    (h : w.find? (w.classOf x) name = none ∨ Link.isBuiltIn? (w.find? (w.classOf x) name)) :
    w.special? x name = none := by
  unfold special?
  dsimp only
  rcases h with h | h
  · rw [h]
  · cases hf : w.find? (w.classOf x) name with
    | none => rfl
    | some found =>
      obtain ⟨c, a⟩ := found
      rw [hf] at h
      cases c with
      | builtIn k => rfl
      | made n => exact h.elim

theorem special?_builtIn {w : World} {x : Value} {k : Kind} (h : w.classOf x = .builtIn k)
    (name : String) : w.special? x name = none := by
  apply special?_eq_none
  rw [h]
  exact isBuiltIn?_find? w k name

end World

namespace Link

variable {L : Link} {w v : World}

namespace Linked

/-! ## Values that a run can get hold of -/

theorem cell_rename (h : L.Linked w v) {n : Nat} (hn : L.cell n) :
    v.cell (L.ρ.cell n) = (w.cell n).rename L.ρ := by
  unfold World.cell
  rw [h.cells n hn]
  cases w.cells[n]? <;> rfl

theorem cell_within (h : L.Linked w v) {n : Nat} (hn : L.cell n) :
    (w.cell n).Within (L.extent w) := by
  unfold World.cell
  cases hx : w.cells[n]? with
  | none => trivial
  | some x => exact h.within n x hn hx

theorem followed_rename (h : L.Linked w v) {x : Value} (hx : x.Within (L.extent w)) :
    v.followed (x.rename L.ρ) = (w.followed x).rename L.ρ := by
  cases x with
  | opaqueRef o =>
    cases o with
    | place p =>
      cases p with
      | cell n => exact h.cell_rename hx.1
      | attributes => exact hx.elim
      | shown => exact hx.elim
    | _ => rfl
  | _ => rfl

theorem followed_within (h : L.Linked w v) {x : Value} (hx : x.Within (L.extent w)) :
    (w.followed x).Within (L.extent w) := by
  cases x with
  | opaqueRef o =>
    cases o with
    | place p =>
      cases p with
      | cell n => exact h.cell_within hx.1
      | attributes => exact hx.elim
      | shown => exact hx.elim
    | _ => exact hx
  | _ => exact hx

/-- A function that is a value: one without context, or a helper bound to the context. -/
inductive Routine (L : Link) (w v : World) (r : Nat) : Prop
  | shared (b : Block) (hw : w.handles[r]? = some ⟨.body .ofClass (.block b), none⟩)
    (hv : v.handles[L.ρ.routine r]? = some ⟨.body .ofClass (.block b), none⟩)
    (hb : ∀ u ∈ b.uses, AsksAlone u)
  | bound (h : Nat) (hh : L.helper h)
    (hw : w.handles[r]? = some ⟨.forwards (routineValue h), some L.left.context⟩)
    (hv : v.handles[L.ρ.routine r]? =
      some ⟨.forwards (routineValue (L.ρ.routine h)), some L.right.context⟩)

/-- A helper that takes no context is a value on both sides. -/
theorem shared_within (h : L.Linked w v) {r : Nat} (hr : L.shared r) :
    (routineValue r).Within (L.extent w) := by
  obtain ⟨b, hb, _⟩ := h.sound.shared r hr
  have hlt := (List.getElem?_eq_some_iff.mp hb).1
  exact ⟨.inl hr, Nat.lt_of_lt_of_le hlt h.left.handles_le⟩

theorem handle_left (h : L.Linked w v) {r : Nat} {handle : Handle}
    (hr : L.left.world.handles[r]? = some handle) : w.handles[r]? = some handle := by
  rw [h.left.handles r (List.getElem?_eq_some_iff.mp hr).1, hr]

theorem handle_right (h : L.Linked w v) {r : Nat} {handle : Handle}
    (hr : L.right.world.handles[r]? = some handle) : v.handles[r]? = some handle := by
  rw [h.right.handles r (List.getElem?_eq_some_iff.mp hr).1, hr]

theorem routine (h : L.Linked w v) {r : Nat} (hr : (L.extent w).routine r) :
    Routine L w v r := by
  obtain ⟨hr | hr, hlt⟩ := hr
  · obtain ⟨b, hl, hv, hb⟩ := h.sound.shared r hr
    exact .shared b (h.handle_left hl) (h.handle_right hv) hb
  · obtain ⟨helper, hh, hl, hv⟩ := h.handles r hr hlt
    exact .bound helper hh hl hv

/-- Both runs see a value as one of the same built-in class. -/
theorem classOf_within (h : L.Linked w v) {x : Value} (hx : x.Within (L.extent w)) :
    ∃ k, w.classOf x = .builtIn k ∧ v.classOf (x.rename L.ρ) = .builtIn k := by
  cases x with
  | opaqueRef o =>
    cases o with
    | place p =>
      cases p with
      | cell n =>
        refine ⟨(w.cell n).kind, rfl, ?_⟩
        show ClassRef.builtIn (v.cell (L.ρ.cell n)).kind = _
        rw [h.cell_rename hx.1, Value.kind_rename]
      | attributes => exact hx.elim
      | shown => exact hx.elim
    | routine r =>
      cases h.routine hx with
      | shared b hw hv _ =>
        refine ⟨.function, ?_, ?_⟩
        · simp only [World.classOf, hw]
        · simp only [Value.rename, Opaque.rename, World.classOf, hv]
      | bound helper _ hw hv =>
        refine ⟨.method, ?_, ?_⟩
        · simp only [World.classOf, hw]
        · simp only [Value.rename, Opaque.rename, World.classOf, hv]
    | cls => exact hx.elim
    | object => exact hx.elim
    | view => exact hx.elim
    | cursor => exact hx.elim
    | token => exact ⟨.token, rfl, rfl⟩
    | mute => exact ⟨.mute, rfl, rfl⟩
    | plain => exact ⟨.object, rfl, rfl⟩
  | record => exact hx.elim
  | _ => exact ⟨_, rfl, rfl⟩

theorem kindName_within (h : L.Linked w v) {x : Value} (hx : x.Within (L.extent w)) :
    v.kindName (x.rename L.ρ) = w.kindName x := by
  obtain ⟨k, hw, hv⟩ := h.classOf_within hx
  cases x with
  | opaqueRef o =>
    cases o with
    | plain => rfl
    | routine r =>
      cases h.routine hx with
      | shared b hw' hv' _ =>
        simp only [Value.rename, Opaque.rename, World.kindName, hw', hv'] at hv ⊢
        rw [hv, hw]
        rfl
      | bound helper _ hw' hv' =>
        simp only [Value.rename, Opaque.rename, World.kindName, hw', hv'] at hv ⊢
        rw [hv, hw]
        rfl
    | _ =>
      simp only [Value.rename, Opaque.rename, World.kindName] at hv ⊢
      rw [hv, hw]
      rfl
  | _ =>
    simp only [Value.rename, World.kindName] at hv ⊢
    rw [hv, hw]
    rfl

theorem special?_within (h : L.Linked w v) {x : Value} (hx : x.Within (L.extent w))
    (name : String) : w.special? x name = none ∧ v.special? (x.rename L.ρ) name = none := by
  obtain ⟨k, hw, hv⟩ := h.classOf_within hx
  exact ⟨World.special?_builtIn hw name, World.special?_builtIn hv name⟩

theorem proxied?_within {x : Value} (hx : x.Within (L.extent w)) :
    w.proxied? x = none ∧ v.proxied? (x.rename L.ρ) = none := by
  cases x with
  | opaqueRef o =>
    cases o with
    | place p =>
      cases p with
      | cell n => exact ⟨rfl, rfl⟩
      | attributes => exact hx.elim
      | shown => exact hx.elim
    | _ => exact ⟨rfl, rfl⟩
  | _ => exact ⟨rfl, rfl⟩

end Linked

mutual

theorem hashes_rename {e : Extent} (w v : World) (ρ : Renaming) {x : Value} (hx : x.Within e) :
    v.hashes (x.rename ρ) = w.hashes x := by
  cases x with
  | tuple xs => simp only [Value.rename, World.hashes, allHash_rename w v ρ hx]
  | opaqueRef o =>
    cases o with
    | object => exact hx.elim
    | place p => cases p <;> rfl
    | _ => rfl
  | _ => rfl

theorem allHash_rename {e : Extent} (w v : World) (ρ : Renaming) {xs : List Value}
    (hx : Value.WithinItems e xs) : v.allHash (Value.renameItems ρ xs) = w.allHash xs := by
  cases xs with
  | nil => rfl
  | cons x xs =>
    simp only [Value.renameItems, World.allHash, hashes_rename w v ρ hx.1,
      allHash_rename w v ρ hx.2]

end

/-! ## The contexts -/

namespace Linked

theorem left_classOf (h : L.Linked w v) (hp : L.present) : w.classOf L.left.context = .made L.left.cls := by
  have ho := (h.sound.contexts hp).left_object
  rw [← h.left.objects] at ho
  cases hx : w.objects[L.left.self]? with
  | none => rw [hx] at ho; cases ho
  | some o =>
    rw [hx] at ho
    simp only [Side.context, World.classOf, hx]
    exact congrArg Prod.fst (Option.some.inj ho)

theorem right_classOf (h : L.Linked w v) (hp : L.present) : v.classOf L.right.context = .made L.right.cls := by
  have ho := (h.sound.contexts hp).right_object
  rw [← h.right.objects] at ho
  cases hx : v.objects[L.right.self]? with
  | none => rw [hx] at ho; cases ho
  | some o =>
    rw [hx] at ho
    simp only [Side.context, World.classOf, hx]
    exact congrArg Prod.fst (Option.some.inj ho)

theorem left_cell (h : L.Linked w v) (hp : L.present) : w.attributeCell? L.left.context = some L.store := by
  have ho := (h.sound.contexts hp).left_object
  rw [← h.left.objects] at ho
  cases hx : w.objects[L.left.self]? with
  | none => rw [hx] at ho; cases ho
  | some o =>
    rw [hx] at ho
    simp only [Side.context, World.attributeCell?, hx]
    exact congrArg Prod.snd (Option.some.inj ho)

theorem right_cell (h : L.Linked w v) (hp : L.present) :
    v.attributeCell? L.right.context = some (L.ρ.cell L.store) := by
  have ho := (h.sound.contexts hp).right_object
  rw [← h.right.objects] at ho
  cases hx : v.objects[L.right.self]? with
  | none => rw [hx] at ho; cases ho
  | some o =>
    rw [hx] at ho
    simp only [Side.context, World.attributeCell?, hx]
    exact congrArg Prod.snd (Option.some.inj ho)

theorem left_find? (h : L.Linked w v) (name : String) :
    w.find? (.made L.left.cls) name = L.left.find? name :=
  World.find?_congr h.left.classes _ _

theorem right_find? (h : L.Linked w v) (name : String) :
    v.find? (.made L.right.cls) name = L.right.find? name :=
  World.find?_congr h.right.classes _ _

theorem left_className (h : L.Linked w v) (c : ClassRef) :
    w.className c = L.left.world.className c := World.className_congr h.left.classes c

theorem right_className (h : L.Linked w v) (c : ClassRef) :
    v.className c = L.right.world.className c := World.className_congr h.right.classes c

/-- What is said when the context lacks an attribute. -/
theorem noAttribute_faults (h : L.Linked w v) (hp : L.present) (name : String) :
    L.Faults (w.noAttribute L.left.context name) (v.noAttribute L.right.context name) := by
  have hl : w.noAttribute L.left.context name =
      .noAttribute (.object (L.left.world.className (.made L.left.cls))) name := by
    show Fault.noAttribute (.object (w.className (w.classOf L.left.context))) name = _
    rw [h.left_classOf hp, h.left_className]
  have hr : v.noAttribute L.right.context name =
      .noAttribute (.object (L.right.world.className (.made L.right.cls))) name := by
    show Fault.noAttribute (.object (v.className (v.classOf L.right.context))) name = _
    rw [h.right_classOf hp, h.right_className]
  rw [hl, hr]
  exact .ofObject name

/-- The attribute that was set on something under a name, for cells that stand for each other. -/
theorem setAttribute?_cell (h : L.Linked w v) {x y : Value} {n : Nat} (hn : L.cell n)
    (hx : w.attributeCell? x = some n) (hy : v.attributeCell? y = some (L.ρ.cell n))
    (name : String) :
    v.setAttribute? y name = (w.setAttribute? x name).map (Value.rename L.ρ) ∧
      ∀ z, w.setAttribute? x name = some z → z.Within (L.extent w) := by
  unfold World.setAttribute?
  rw [hx, hy]
  simp only [Option.bind_eq_bind, Option.bind_some]
  rw [h.cell_rename hn, Value.rows?_rename]
  have hw := h.cell_within hn
  cases hr : (w.cell n).rows? with
  | none => exact ⟨rfl, by rintro z ⟨⟩⟩
  | some rows =>
    simp only [Option.map_some, Option.bind_some]
    rw [List.find?_map]
    have hsame : ((fun row : Value × Value => Value.same row.1 (.str name)) ∘
        fun row : Value × Value => (row.1.rename L.ρ, row.2.rename L.ρ)) =
        fun row => Value.same row.1 (.str name) := by
      funext row
      exact Value.same_str_rename L.ρ row.1 name
    rw [hsame]
    cases hf : rows.find? fun row => Value.same row.1 (.str name) with
    | none => exact ⟨rfl, by rintro z ⟨⟩⟩
    | some row =>
      refine ⟨rfl, ?_⟩
      rintro z ⟨⟩
      exact (Value.within_rows hw hr row (List.mem_of_find?_eq_some hf)).2

end Linked

end Link

end Toolwright
