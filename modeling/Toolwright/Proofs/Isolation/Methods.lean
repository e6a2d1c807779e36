import Toolwright.Proofs.Serving.Call

/-!
# Methods in linked worlds

An object of a function-calling host executes the block of its definition, directly or through the
method that takes a mapping of arguments, and its helpers can be called. Each of these is alike on
two objects of classes that execute definitions with the same block and the same helpers.
-/

namespace Toolwright

set_option autoImplicit false

/-- A class of a function-calling host that a definition became, or one below it. -/
structure World.Executes (w : World) (a d : Nat) : Prop where
  execute : ∃ k, w.find? (.made a) "execute" =
    some (.made k, .ofObject (.runs (.opaqueRef (.object d))))
  call : ∃ k, w.find? (.made a) "call" =
    some (.made k, .ofObject (.bundled (.host .callFunction)))
  toolName : ∃ k, w.find? (.made a) "tool_name" =
    some (.made k, .ofClass (.bundled (.host .functionName)))
  opens : w.isOpen (.made a) = true
  makes : ∀ k x, w.find? (.made a) "__new__" ≠ some (.made k, x)

/-- A class of one world and a class of another one that execute alike: their definitions have the
same block and the same helpers, and no attributes were set on anything but objects. -/
structure World.ExecutesAlike (w v : World) (σ : Nat → Nat) (a a' d d' : Nat)
    (apart : Nat → Prop) : Prop where
  left : w.Executes a d
  right : v.Executes a' d'
  named : v.own? (.made a') "_name" = w.own? (.made a) "_name"
  closed : ∀ x, w.own? (.made a) "_name" = some x → ∃ y, x = .value y ∧ y.Closed
  className : v.className (.made a') = w.className (.made a)
  unset : w.extras = [] ∧ v.extras = []
  stores : w.StoreAlike v d d' fun r r' => r' = σ r
  helpers : w.SameHelpers v σ a a' (fun r => w.Shows d "execute_block" (routineValue r)) apart False

/-- Two contexts of classes that execute alike, in worlds that hold what earlier ones hold. -/
structure Link.Hosts (L : Link) (w v : World) (σ : Nat → Nat) (a a' d d' : Nat) : Prop where
  present : L.present
  sealed : L.settable = False
  left : w.Extends L.left.world
  right : v.Extends L.right.world
  store : w.cells.length ≤ L.store
  store' : v.cells.length ≤ L.ρ.cell L.store
  cls : L.left.cls = a
  cls' : L.right.cls = a'
  helper : ∀ r, w.Shows d "execute_block" (routineValue r) → L.helper r ∧ L.ρ.routine r = σ r

namespace Link

variable {L : Link} {b b' w v : World} {σ : Nat → Nat} {a a' d d' : Nat} {apart : Nat → Prop}
  {m : Machine} {e : Extent} {name : String}

namespace Hosts

theorem extends_left (hh : L.Hosts b b' σ a a' d d') (hl : L.Linked w v) : b.Extends w :=
  (hh.sealed ▸ hl.left).holds hh.left fun _ hn => hn ▸ hh.store

theorem extends_right (hh : L.Hosts b b' σ a a' d d') (hl : L.Linked w v) : b'.Extends v :=
  (hh.sealed ▸ hl.right).holds hh.right fun _ hn => hn ▸ hh.store'

end Hosts

/-! ## What the classes of both contexts have -/

namespace Hosts

theorem find?_left (hh : L.Hosts b b' σ a a' d d') (name : String) :
    L.left.find? name = b.find? (.made a) name := by
  unfold Side.find?
  rw [World.find?_congr hh.left.classes, hh.cls]

theorem find?_right (hh : L.Hosts b b' σ a a' d d') (name : String) :
    L.right.find? name = b'.find? (.made a') name := by
  unfold Side.find?
  rw [World.find?_congr hh.right.classes, hh.cls']

end Hosts

theorem reach_hosted (hm : L.Faithful m) (hh : L.Hosts b b' σ a a' d d') {x y : Attribute}
    (hxy : Methods x y) (hf : ∃ k, b.find? (.made a) name = some (.made k, x))
    (hf' : ∃ k, b'.find? (.made a') name = some (.made k, y)) :
    L.Agree e (L.Got (methodOf L.left.context a x) (methodOf L.right.context a' y))
      (m.reach L.left.context name) (m.reach L.right.context name) := by
  rw [← hh.find?_left] at hf
  rw [← hh.find?_right] at hf'
  have reached := reach_method (e := e) hm hh.present hxy hf hf'
  rwa [hh.cls, hh.cls'] at reached

/-! ## The block that is executed -/

theorem storedBlock_agree (hh : L.Hosts b b' σ a a' d d')
    (hs : b.StoreAlike b' d d' fun r r' => r' = σ r) :
    L.Agree e (fun _ x y => ∃ r, L.helper r ∧ x = routineValue r ∧
        y = routineValue (L.ρ.routine r))
      (m.storedBlock (.opaqueRef (.object d))) (m.storedBlock (.opaqueRef (.object d'))) := by
  intro w v hl _
  unfold Alike
  cases hs with
  | block h h' hr =>
    obtain ⟨hhelper, hmoved⟩ := hh.helper _ h
    rw [Machine.exec_storedBlock m (h.kept (hh.extends_left hl)),
      Machine.exec_storedBlock m (h'.kept (hh.extends_right hl))]
    exact .ok hl (Extent.Below.refl _) ⟨_, hhelper, rfl, by rw [hr, hmoved]⟩
  | nothing h h' =>
    rw [h m w (hh.extends_left hl), h' m v (hh.extends_right hl)]
    exact .error hl (Extent.Below.refl _) (.same _)

theorem runs_agree (hm : L.Faithful m) (hh : L.Hosts b b' σ a a' d d')
    (hs : b.StoreAlike b' d d' fun r r' => r' = σ r) {args : List Value} {named : Named}
    (ha : Args e args named) :
    L.Agree e L.Renamed
      (m.callWith (.runs (.opaqueRef (.object d))) (L.left.context :: args) named)
      (m.callWith (.runs (.opaqueRef (.object d')))
        (L.right.context :: args.map (Value.rename L.ρ)) (Named.rename L.ρ named)) := by
  cases args with
  | nil =>
    apply Agree.bind (storedBlock_agree hh hs)
    rintro e₁ _ _ h₁ ⟨r, hr, rfl, rfl⟩
    exact hm.run hr (show Args e₁ [] named from ⟨by simp, Named.Within.mono h₁ ha.named⟩)
  | cons x args => exact Agree.throw (.same _)

end Link

end Toolwright
