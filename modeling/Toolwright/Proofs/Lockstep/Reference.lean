import Mathlib.Data.List.Nodup
import Mathlib.Data.List.Perm.Subperm
import Toolwright.Host.Showing
import Toolwright.Proofs.Lockstep.Lookup

/-!
# References in linked worlds

A value without the references behind which containers stand is alike in both worlds. The depth that
is allowed to references is never used up: on the way into a container each cell is met once.
-/

namespace Toolwright

set_option autoImplicit false

/-- The extent without cells. -/
def Extent.flat (e : Extent) : Extent := { e with cell := fun _ => False }

theorem Extent.flat_below (e : Extent) : e.flat.Below e :=
  ⟨fun _ h => h.elim, fun _ h => h, Nat.le_refl _⟩

theorem Extent.flat_mono {e e' : Extent} (h : e.Below e') : e.flat.Below e'.flat :=
  ⟨fun _ h => h, h.routine, h.marks⟩

theorem length_le_of_nodup {ns : List Nat} {k : Nat} (hn : ns.Nodup) (h : ∀ n ∈ ns, n < k) :
    ns.length ≤ k := by
  have hsub : ns ⊆ List.range k := fun n hmem => List.mem_range.mpr (h n hmem)
  have := (List.subperm_of_subset hn hsub).length_le
  rwa [List.length_range] at this

namespace World

variable {ρ : Renaming} {e : Extent} {enter enter' : Opaque → Except Fault Value}

/-- What stands for a value in both worlds: alike, and without cells. -/
def Twins (ρ : Renaming) (e : Extent) (x y : Except Fault Value) : Prop :=
  y = x.map (Value.rename ρ) ∧ ∀ r, x = .ok r → r.Within e.flat

mutual

theorem expand_rename (h : ∀ o : Opaque, o.Within e → Twins ρ e (enter o) (enter' (o.rename ρ)))
    (x : Value) (hx : x.Within e) : Twins ρ e (expand enter x) (expand enter' (x.rename ρ)) := by
  cases x with
  | list xs | tuple xs | set xs | frozenset xs =>
    obtain ⟨hr, hw⟩ := expandItems_rename h xs hx
    simp only [Value.rename, expand, hr]
    cases hxs : expandItems enter xs with
    | error f => exact ⟨rfl, by rintro r ⟨⟩⟩
    | ok ys => exact ⟨rfl, by rintro r ⟨⟩; exact hw ys hxs⟩
  | dict rows | mapping rows =>
    obtain ⟨hr, hw⟩ := expandRows_rename h rows hx
    simp only [Value.rename, expand, hr]
    cases hxs : expandRows enter rows with
    | error f => exact ⟨rfl, by rintro r ⟨⟩⟩
    | ok ys => exact ⟨rfl, by rintro r ⟨⟩; exact hw ys hxs⟩
  | opaqueRef o => exact h o hx
  | record => exact hx.elim
  | _ => exact ⟨rfl, by rintro r ⟨⟩; exact hx⟩

theorem expandItems_rename
    (h : ∀ o : Opaque, o.Within e → Twins ρ e (enter o) (enter' (o.rename ρ)))
    (xs : List Value) (hx : Value.WithinItems e xs) :
    expandItems enter' (Value.renameItems ρ xs) =
        (expandItems enter xs).map (Value.renameItems ρ) ∧
      ∀ ys, expandItems enter xs = .ok ys → Value.WithinItems e.flat ys := by
  cases xs with
  | nil => exact ⟨rfl, by rintro ys ⟨⟩; trivial⟩
  | cons x xs =>
    obtain ⟨hr, hw⟩ := expand_rename h x hx.1
    obtain ⟨hrs, hws⟩ := expandItems_rename h xs hx.2
    simp only [Value.renameItems, expandItems, hr, hrs]
    cases hx : expand enter x with
    | error f => exact ⟨rfl, by rintro r ⟨⟩⟩
    | ok y =>
      cases hxs : expandItems enter xs with
      | error f => exact ⟨rfl, by rintro r ⟨⟩⟩
      | ok ys => exact ⟨rfl, by rintro r ⟨⟩; exact ⟨hw y hx, hws ys hxs⟩⟩

theorem expandRows_rename
    (h : ∀ o : Opaque, o.Within e → Twins ρ e (enter o) (enter' (o.rename ρ)))
    (rows : List (Value × Value)) (hx : Value.WithinRows e rows) :
    expandRows enter' (Value.renameRows ρ rows) =
        (expandRows enter rows).map (Value.renameRows ρ) ∧
      ∀ ys, expandRows enter rows = .ok ys → Value.WithinRows e.flat ys := by
  cases rows with
  | nil => exact ⟨rfl, by rintro ys ⟨⟩; trivial⟩
  | cons row rows =>
    obtain ⟨k, x⟩ := row
    obtain ⟨hk, hwk⟩ := expand_rename h k hx.1.1
    obtain ⟨hr, hw⟩ := expand_rename h x hx.1.2
    obtain ⟨hrs, hws⟩ := expandRows_rename h rows hx.2
    simp only [Value.renameRows, expandRows, hk, hr, hrs]
    cases hkey : expand enter k with
    | error f => exact ⟨rfl, by rintro r ⟨⟩⟩
    | ok k =>
      cases hval : expand enter x with
      | error f => exact ⟨rfl, by rintro r ⟨⟩⟩
      | ok y =>
        cases hxs : expandRows enter rows with
        | error f => exact ⟨rfl, by rintro r ⟨⟩⟩
        | ok ys => exact ⟨rfl, by rintro r ⟨⟩; exact ⟨⟨hwk k hkey, hw y hval⟩, hws ys hxs⟩⟩

end

end World

namespace Link

open World

variable {L : Link} {w v : World}

/-- Two ways to look inside references that see the same cells. -/
def SeesAlike (L : Link) (w : World) (inside inside' : Opaque → Option (Except Fault Value)) :
    Prop :=
  ∀ o : Opaque, o.Within (L.extent w) →
    (inside o = none ∧ inside' (o.rename L.ρ) = none ∧ o.Within (L.extent w).flat) ∨
    ∃ n x, o = .place (.cell n) ∧ inside o = some (.ok x) ∧
      inside' (o.rename L.ρ) = some (.ok (x.rename L.ρ)) ∧ x.Within (L.extent w)

theorem Linked.inside? (h : L.Linked w v) : SeesAlike L w w.inside? v.inside? := by
  intro o ho
  cases o with
  | place p =>
    cases p with
    | cell n =>
      right
      refine ⟨n, w.cell n, rfl, rfl, ?_, h.cell_within ho.1⟩
      rw [← h.cell_rename ho.1]
      rfl
    | attributes => exact ho.elim
    | shown => exact ho.elim
  | object => exact ho.elim
  | cls => exact ho.elim
  | view => exact ho.elim
  | cursor => exact ho.elim
  | _ => exact .inl ⟨rfl, rfl, ho⟩

section Follow

variable {inside inside' : Opaque → Option (Except Fault Value)}
  {again again' : Value → Except Fault Value}

/-- The references around a place are different cells, so there are no more of them than cells. -/
structure Around (L : Link) (w : World) (around : List Opaque) : Prop where
  nodup : around.Nodup
  cells : ∀ o ∈ around, ∃ n, o = .place (.cell n) ∧ (L.extent w).cell n

def cellNumber : Opaque → Nat
  | .place (.cell n) => n
  | _ => 0

theorem Around.length_le {around : List Opaque} (h : Around L w around) :
    around.length ≤ w.cells.length := by
  rw [← List.length_map cellNumber]
  apply length_le_of_nodup
  · apply h.nodup.map_on
    intro a ha b hb hab
    obtain ⟨n, rfl, _⟩ := h.cells a ha
    obtain ⟨m, rfl, _⟩ := h.cells b hb
    exact congrArg (fun n => Opaque.place (.cell n)) hab
  · intro n hn
    obtain ⟨o, ho, rfl⟩ := List.mem_map.mp hn
    obtain ⟨m, rfl, hm⟩ := h.cells o ho
    exact hm.2

theorem Around.length_le_right (hl : L.Linked w v) {around : List Opaque} (h : Around L w around) :
    around.length ≤ v.cells.length := by
  rw [← List.length_map (L.ρ.cell ∘ cellNumber)]
  apply length_le_of_nodup
  · apply h.nodup.map_on
    intro a ha b hb hab
    obtain ⟨n, rfl, _⟩ := h.cells a ha
    obtain ⟨m, rfl, _⟩ := h.cells b hb
    exact congrArg (fun n => Opaque.place (.cell n)) (L.ρ.cell_injective hab)
  · intro n hn
    obtain ⟨o, ho, rfl⟩ := List.mem_map.mp hn
    obtain ⟨m, rfl, hm⟩ := h.cells o ho
    exact (hl.cell_lt hm.1).mpr hm.2

theorem follow_rename (hl : L.Linked w v) (hin : SeesAlike L w inside inside')
    (hagain : ∀ x : Value, x.Within (L.extent w) →
      Twins L.ρ (L.extent w) (again x) (again' (x.rename L.ρ)))
    (depth depth' : Nat) (around : List Opaque) (o : Opaque) (ho : o.Within (L.extent w))
    (ha : Around L w around) (hd : w.cells.length < depth + around.length)
    (hd' : v.cells.length < depth' + around.length) :
    Twins L.ρ (L.extent w) (follow inside again depth around o)
      (follow inside' again' depth' (around.map (Opaque.rename L.ρ)) (o.rename L.ρ)) := by
  induction depth generalizing depth' around o with
  | zero =>
    have := ha.length_le
    omega
  | succ depth ih =>
    cases depth' with
    | zero =>
      have := ha.length_le_right hl
      omega
    | succ depth' =>
      unfold follow
      have hcontains : (around.map (Opaque.rename L.ρ)).contains (o.rename L.ρ) =
          around.contains o := by
        rw [Bool.eq_iff_iff]
        simp only [List.contains_iff_mem, List.mem_map, Opaque.rename_inj, exists_eq_right]
      rcases hin o ho with ⟨hnone, hnone', hw⟩ | ⟨n, x, rfl, hsome, hsome', hx⟩
      · rw [hnone, hnone']
        refine ⟨rfl, ?_⟩
        rintro r ⟨⟩
        exact hw
      · rw [hsome, hsome', hcontains]
        dsimp only
        by_cases hc : around.contains (.place (.cell n)) = true
        · simp only [hc, if_true]
          exact hagain x hx
        · simp only [hc]
          have ha' : Around L w (.place (.cell n) :: around) := by
            constructor
            · apply List.nodup_cons.mpr
              refine ⟨fun hmem => hc ?_, ha.nodup⟩
              exact List.contains_iff_mem.mpr hmem
            · intro p hp
              rcases List.mem_cons.mp hp with rfl | hp
              · exact ⟨n, rfl, ho⟩
              · exact ha.cells p hp
          apply expand_rename _ x hx
          intro p hp
          apply ih depth' _ p hp ha'
          · rw [List.length_cons]
            omega
          · rw [List.length_cons]
            omega

end Follow

theorem exposed_rename (h : L.Linked w v) {x : Value} (hx : x.Within (L.extent w)) :
    Twins L.ρ (L.extent w) (w.exposed x) (v.exposed (x.rename L.ρ)) := by
  unfold World.exposed
  apply expand_rename _ x hx
  intro o ho
  apply follow_rename h h.inside? _ _ _ [] o ho ⟨List.nodup_nil, by simp⟩
  · simp only [World.referenceCount, List.length_nil]
    omega
  · simp only [World.referenceCount, List.length_nil]
    omega
  · intro x _
    exact ⟨rfl, by rintro r ⟨⟩⟩

theorem outlined_rename (h : L.Linked w v) {x : Value} (hx : x.Within (L.extent w)) :
    Twins L.ρ (L.extent w) (w.outlined x) (v.outlined (x.rename L.ρ)) := by
  unfold World.outlined
  dsimp only
  apply expand_rename _ x hx
  intro o ho
  apply follow_rename h _ _ _ _ [] o ho ⟨List.nodup_nil, by simp⟩
  · simp only [World.referenceCount, List.length_nil]
    omega
  · simp only [World.referenceCount, List.length_nil]
    omega
  · intro p hp
    have hnone := Linked.proxied?_within (w := w) (v := v) (L := L) (x := .opaqueRef p) hp
    have hnone' : v.proxied? (.opaqueRef (p.rename L.ρ)) = none := hnone.2
    simp only [hnone.1, hnone', Option.isSome_none, Bool.false_eq_true, if_false]
    exact h.inside? p hp
  · intro x _
    refine ⟨?_, ?_⟩
    · cases x <;> rfl
    · rintro r ⟨⟩
      trivial

theorem outlined_left (h : L.Linked w v) (hp : L.present) : w.outlined L.left.context = .ok L.left.context := by
  have hs : w.shape? (w.classOf (.opaqueRef (.object L.left.self))) = none := by
    have hc := h.left_classOf hp
    unfold Side.context at hc
    rw [hc, World.shape?_congr h.left.classes]
    exact (h.sound.contexts hp).left_shape
  unfold World.outlined World.referenceCount Side.context
  simp only [expand, follow, World.proxied?, World.inside?, hs, Option.map_none,
    Option.isSome_none, Bool.false_eq_true, if_false]

theorem outlined_right (h : L.Linked w v) (hp : L.present) : v.outlined L.right.context = .ok L.right.context := by
  have hs : v.shape? (v.classOf (.opaqueRef (.object L.right.self))) = none := by
    have hc := h.right_classOf hp
    unfold Side.context at hc
    rw [hc, World.shape?_congr h.right.classes]
    exact (h.sound.contexts hp).right_shape
  unfold World.outlined World.referenceCount Side.context
  simp only [expand, follow, World.proxied?, World.inside?, hs, Option.map_none,
    Option.isSome_none, Bool.false_eq_true, if_false]

end Link

end Toolwright
