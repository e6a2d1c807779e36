import Toolwright.Proofs.Adaptation.Course
import Toolwright.Proofs.Adaptation.Resolution

/-!
# Contexts of adapted definitions

Objects of a tool class of a function-calling host, and objects of the helper class of a served tool,
are the contexts on which a definition runs. Both find the same helpers under the names that the
language and the host leave free, so that blocks which use no other names run alike on them.
-/

namespace Toolwright

set_option autoImplicit false

/-- A name to which the language gives no meaning, for objects, for classes or for what a block has
in the place of a context. -/
structure Neutral (name : String) : Prop where
  common : Common name
  unclaimed : ∀ k ∈ [Kind.object, .null, .type], k.attribute? name = none

theorem neutral_of_startsWith {name : String} (h : name.startsWith "__" = false) (hm : name ≠ "mro") :
    Neutral name where
  common := common_of_startsWith h
  unclaimed k hk := by
    have marked : ∀ k ∈ [Kind.object, .null, .type],
        ∀ key ∈ k.fields ++ k.operations ++ k.classOperations ++ k.freeOperations,
          key.startsWith "__" = true ∨ key = "mro" := by decide +kernel
    have none_of (keys : List String) (hsub : ∀ key ∈ keys, key ∈
        k.fields ++ k.operations ++ k.classOperations ++ k.freeOperations) :
        keys.contains name = false := by
      rw [Bool.eq_false_iff]
      intro hc
      rcases marked k hk name (hsub name (List.contains_iff_mem.mp hc)) with hs | he
      · rw [h] at hs
        cases hs
      · exact hm he
    have other (key : String) (hs : key.startsWith "__" = true) : (name == key) = false := by
      rw [beq_eq_false_iff_ne]
      rintro rfl
      rw [h] at hs
      cases hs
    unfold Kind.attribute?
    rw [none_of k.fields (by grind), none_of k.operations (by grind),
      none_of k.classOperations (by grind), none_of k.freeOperations (by grind),
      other "__module__" (by decide +kernel), other "__doc__" (by decide +kernel),
      other "__hash__" (by decide +kernel), other "__reversed__" (by decide +kernel)]
    rfl

def recordClasses : List Nat := [answerClass, 4, 5, 6, 7]

def Definition.helperBodies (D : Definition Stored) : List Stored :=
  D.instanceHelpers.map (·.2) ++ D.classHelpers.map (·.2)

theorem Definition.of_mem_atop {D B : Definition Stored} {s : Stored}
    (h : s ∈ (D.atop B).helperBodies) : s ∈ D.helperBodies ∨ s ∈ B.helperBodies := by
  have split {rows above : List (String × Stored)} {p q : String × Stored → Bool}
      (hs : s ∈ (rows.filter p ++ above.filter q).map (·.2)) :
      s ∈ rows.map (·.2) ∨ s ∈ above.map (·.2) := by
    rw [List.map_append, List.mem_append] at hs
    exact hs.imp (fun hm => (List.filter_sublist.map _).subset hm)
      fun hm => (List.filter_sublist.map _).subset hm
  rcases List.mem_append.mp h with h | h
  · exact (split h).imp (List.mem_append_left _) (List.mem_append_left _)
  · exact (split h).imp (List.mem_append_right _) (List.mem_append_right _)

def Definition.bodies (D : Definition Stored) : List Stored := D.block.toList ++ D.helperBodies

def Builder.block? : Builder → Option Block
  | .execute block | .help _ _ block => some block
  | _ => none

theorem Definition.Next.of_mem_bodies {D D' : Definition Stored} {op : Builder} (h : D.Next op D')
    {s : Stored} (hs : s ∈ D'.bodies) : s ∈ D.bodies ∨ op.block? = some s.block := by
  cases h with
  | describe text x => cases x <;> exact .inl hs
  | declare draft spec => exact .inl hs
  | drop => exact .inl hs
  | store t =>
    rcases List.mem_append.mp hs with hb | hh
    · obtain rfl : s = t := by simpa [Definition.store] using hb
      exact .inr rfl
    · exact .inl (List.mem_append_right _ hh)
  | help scope name t =>
    have inserted {helpers : List (String × Stored)}
        (hm : s ∈ (Table.insert name t helpers).map (·.2)) : s ∈ helpers.map (·.2) ∨ s = t := by
      obtain ⟨row, hrow, rfl⟩ := List.mem_map.mp hm
      rcases Table.mem_insert hrow with hold | rfl
      · exact .inl (List.mem_map_of_mem hold)
      · exact .inr rfl
    simp only [Definition.bodies, Definition.helperBodies, List.mem_append] at hs ⊢
    cases scope with
    | ofInstance =>
      rcases hs with hb | hi | hc
      · exact .inl (.inl hb)
      · rcases inserted hi with hold | rfl
        · exact .inl (.inr (.inl hold))
        · exact .inr rfl
      · exact .inl (.inr (.inr hc))
    | ofClass =>
      rcases hs with hb | hi | hc
      · exact .inl (.inl hb)
      · exact .inl (.inr (.inl hi))
      · rcases inserted hc with hold | rfl
        · exact .inl (.inr (.inr hold))
        · exact .inr rfl

theorem Definition.Built.of_mem_bodies {D D' : Definition Stored} {ops : List Builder}
    (h : D.Built ops D') {s : Stored} (hs : s ∈ D'.bodies) :
    s ∈ D.bodies ∨ ∃ op ∈ ops, op.block? = some s.block := by
  induction h with
  | nil D => exact .inl hs
  | done hn hb ih =>
    rcases ih hs with hm | ⟨op, hop, he⟩
    · exact (hn.of_mem_bodies hm).imp_right fun he => ⟨_, List.mem_cons_self, he⟩
    · exact .inr ⟨op, List.mem_cons_of_mem _ hop, he⟩
  | failed op hb ih =>
    exact (ih hs).imp_right fun ⟨op, hop, he⟩ => ⟨op, List.mem_cons_of_mem _ hop, he⟩

/-- What a block of a definition may ask of its context: names that the language and the hosts leave
free. Helpers of instances that it reaches through the class are in `apart`. -/
def Definition.Permits (D : Definition Stored) (free : String → Prop) (sameName : Prop)
    (apart : Nat → Prop) : Use → Prop
  | .asked name | .called name | .written name => Neutral name ∧ free name
  | .ofClass name => (Neutral name ∧ free name) ∧
    ∀ s, D.helper? name = some (.ofInstance, s) → apart s.handle
  | .className => sameName
  | .step => False

theorem Definition.Permits.alone {D : Definition Stored} {free : String → Prop} {sameName : Prop}
    {apart : Nat → Prop} {u : Use} (h : D.Permits free sameName apart u) : AsksAlone u := by
  have unclaimed {name : String} (hn : Neutral name) : Unclaimed name :=
    ⟨hn.unclaimed _ (by simp), hn.unclaimed _ (by simp)⟩
  cases u with
  | asked name | called name | written name => exact unclaimed h.1
  | ofClass name => exact ⟨unclaimed h.1.1, h.1.1.unclaimed _ (by simp)⟩
  | className => trivial
  | step => exact h

/-- A block may call getters of the host besides, without arguments. -/
def Definition.Allows (D : Definition Stored) (free told : String → Prop) (sameName : Prop)
    (apart : Nat → Prop) (u : Use) : Prop :=
  (∃ name, u = .called name ∧ told name) ∨ D.Permits free sameName apart u

theorem Definition.Allows.alone {D : Definition Stored} {free told : String → Prop} {sameName : Prop}
    {apart : Nat → Prop} {u : Use} (h : D.Allows free told sameName apart u)
    (ht : ∀ name, told name → Unclaimed name) : AsksAlone u := by
  rcases h with ⟨name, rfl, hn⟩ | h
  · exact ht name hn
  · exact h.alone

def Stored.moved (σ : Nat → Nat) (s : Stored) : Stored := { s with handle := σ s.handle }

theorem Stored.moved_id : Stored.moved id = id := rfl

/-- Two definitions have the same helpers under the same names, as functions that stand for each
other. -/
structure Definition.HelpsAs (D D' : Definition Stored) (σ : Nat → Nat) : Prop where
  ofInstance : D'.instanceHelpers = D.instanceHelpers.map fun row => (row.1, row.2.moved σ)
  ofClass : D'.classHelpers = D.classHelpers.map fun row => (row.1, row.2.moved σ)

theorem Definition.HelpsAs.refl (D : Definition Stored) : D.HelpsAs D id :=
  ⟨(List.map_id _).symm, (List.map_id _).symm⟩

theorem Definition.mem_classHelpers {D : Definition Stored} {name : String} {s : Stored}
    (h : D.helper? name = some (.ofClass, s)) : (name, s) ∈ D.classHelpers := by
  unfold Definition.helper? at h
  cases hc : Table.find? D.classHelpers name with
  | some x =>
    rw [hc] at h
    cases h
    exact Table.mem_of_find? hc
  | none =>
    rw [hc] at h
    obtain ⟨x, -, hx⟩ := Option.map_eq_some_iff.mp h
    cases hx

theorem Definition.HelpsAs.helper? {D D' : Definition Stored} {σ : Nat → Nat} (h : D.HelpsAs D' σ)
    (name : String) : D'.helper? name = (D.helper? name).map fun x => (x.1, x.2.moved σ) := by
  have found := Table.find?_mapValues (fun _ : String => Stored.moved σ)
  unfold Definition.helper?
  rw [h.ofInstance, h.ofClass, found, found, Option.map_or]
  simp only [Option.map_map]
  rfl

theorem Definition.HelpsAs.atop {D D' B B' : Definition Stored} {σ : Nat → Nat} (h : D.HelpsAs D' σ)
    (hb : B.HelpsAs B' σ) : (D.atop B).HelpsAs (D'.atop B') σ := by
  have reserves (name : String) : B'.reserves name = B.reserves name := by
    unfold Definition.reserves
    rw [hb.helper?, Option.isSome_map]
  have hides (name : String) : D'.hides name = D.hides name := by
    unfold Definition.hides
    rw [h.helper?, Option.isSome_map]
  constructor
  all_goals
    simp only [Definition.atop, h.ofInstance, h.ofClass, hb.ofInstance, hb.ofClass, List.map_append,
      List.filter_map, reserves, hides]
    rfl

namespace World

variable {w v : World} {own : Nat → Prop} {D D' : Definition Stored} {n a h : Nat} {c : ClassRef}
  {free free' : String → Prop}

/-- A class that calls no helpers but those of a definition, and of which the objects are otherwise
like those of the class of all objects. -/
structure Helps (w : World) (c : ClassRef) (D : Definition Stored) : Prop where
  records : ∀ k, .made k ∈ w.lineage c → k ∉ recordClasses
  above : .builtIn .object ∈ w.lineage c
  specials : ∀ name ∈ Link.specials, ∃ k : Nat, w.find? c name =
    ((D.helper? name).map fun h => (.made k, helperAttribute h)).or (w.find? (.builtIn .object) name)
  ofInstance : ∀ name k x, w.find? c name = some (k, .ofObject (.forwards x)) →
    ∃ s, (name, s) ∈ D.instanceHelpers ∧ s.value = x
  ofClass : ∀ name k x, w.find? c name = some (k, .fixed x) →
    ∃ s, (name, s) ∈ D.classHelpers ∧ s.value = x
  instanceBodies : ∀ row ∈ D.instanceHelpers, w.RunsOn row.2.handle row.2.block
  classBodies : ∀ row ∈ D.classHelpers, w.RunsAlone row.2.handle row.2.block

/-- Under a name a class finds the helper of a definition, and nothing where there is none. -/
def FindsHelper (w : World) (c : ClassRef) (D : Definition Stored) (name : String) : Prop :=
  ∃ k : Nat, w.find? c name = (D.helper? name).map fun h => (.made k, helperAttribute h)

/-- Objects of a class are contexts that find the helpers of a definition under free names. -/
structure Contextual (w : World) (D : Definition Stored) (n : Nat) (free : String → Prop) : Prop
    extends w.Helps (.made n) D where
  rooted : w.Rooted (.made n)
  finds : ∀ name, Neutral name → free name → w.FindsHelper (.made n) D name

theorem Helps.row_ofInstance (hc : w.Helps (.made n) D) {r : Nat} (hr : w.HasHelper n r) :
    ∃ row ∈ D.instanceHelpers, row.2.handle = r := by
  obtain ⟨name, k, hf⟩ := hr
  obtain ⟨s, hs, he⟩ := hc.ofInstance name _ _ hf
  cases he
  exact ⟨_, hs, rfl⟩

theorem Helps.row_ofClass (hc : w.Helps (.made n) D) {r : Nat} (hr : w.HasClassHelper n r) :
    ∃ row ∈ D.classHelpers, row.2.handle = r := by
  obtain ⟨name, k, hf⟩ := hr
  obtain ⟨s, hs, he⟩ := hc.ofClass name _ _ hf
  cases he
  exact ⟨_, hs, rfl⟩

theorem Contextual.mono (hc : w.Contextual D n free) (hf : ∀ name, free' name → free name) :
    w.Contextual D n free' :=
  { hc with finds := fun name hn hfree => hc.finds name hn (hf name hfree) }

theorem Contextual.ofContexts (hc : w.Contextual D n free) : w.OfContexts n where
  shape := by
    unfold World.shape?
    rw [List.findSome?_eq_none_iff]
    intro holder hm
    cases holder with
    | builtIn k => rfl
    | made k =>
      have hk := hc.records k hm
      simp only [recordClasses, List.mem_cons, List.not_mem_nil, or_false, not_or] at hk
      obtain ⟨h2, h4, h5, h6, h7⟩ := hk
      simp [h2, Shape.cls, Ne.symm h4, Ne.symm h5, Ne.symm h6, Ne.symm h7]
  above := hc.above

theorem LeadsTo.helps (hl : w.LeadsTo v) (hr : w.Rooted c) (hc : w.Helps c D) : v.Helps c D where
  records := by
    rw [hl.lineage hr]
    exact hc.records
  above := by
    rw [hl.lineage hr]
    exact hc.above
  specials name hn := by
    have declared : ∀ name ∈ Link.specials, name ∉ declaredNames := by decide
    rw [hl.find? hr (declared name hn), find?_builtIn, ← find?_builtIn w]
    exact hc.specials name hn
  ofInstance name k x hfind := by
    rcases hl.find?_or hr name with he | ⟨k', y, he⟩
    · exact hc.ofInstance name k x (he.symm.trans hfind)
    · rw [hfind] at he
      cases he
  ofClass name k x hfind := by
    rcases hl.find?_or hr name with he | ⟨k', y, he⟩
    · exact hc.ofClass name k x (he.symm.trans hfind)
    · rw [hfind] at he
      cases he
  instanceBodies row hr := hl.handle (hc.instanceBodies row hr)
  classBodies row hr := hl.handle (hc.classBodies row hr)

theorem LeadsTo.contextual (hl : w.LeadsTo v) (hc : w.Contextual D n free)
    (hf : ∀ name, free name → v.find? (.made n) name = w.find? (.made n) name) :
    v.Contextual D n free where
  toHelps := hl.helps hc.rooted hc.toHelps
  rooted := hl.rooted hc.rooted
  finds name hn hfree := by
    obtain ⟨k, hk⟩ := hc.finds name hn hfree
    exact ⟨k, (hf name hfree).trans hk⟩

theorem sameHelper {σ : Nat → Nat} (x : Option (Scope × Stored)) : SameHelper σ
    (x.map fun s => (ClassRef.made a, helperAttribute s))
    ((x.map fun s => (s.1, s.2.moved σ)).map fun s => (ClassRef.made h, helperAttribute s)) := by
  cases x with
  | none => exact .absent
  | some s =>
    obtain ⟨scope, s⟩ := s
    cases scope with
    | ofInstance => exact .ofInstance
    | ofClass => exact .ofClass

theorem find?_builtIn_cases (w : World) (k : Kind) (name : String) :
    w.find? (.builtIn k) name = none ∨ Link.isBuiltIn? (w.find? (.builtIn k) name) := by
  cases hf : w.find? (.builtIn k) name with
  | none => exact .inl rfl
  | some found =>
    obtain ⟨c, a⟩ := found
    cases c with
    | builtIn k' => exact .inr trivial
    | made j => exact absurd hf (find?_builtIn_ne_made w k name j a)

/-- Two classes that find the helpers of definitions with the same helpers have nothing else under the
names that both leave free. -/
theorem Contextual.free_name (ha : w.Contextual D a free) (hh : v.Contextual D' h free') {σ : Nat → Nat}
    (hσ : D.HelpsAs D' σ) {name : String} (hn : Neutral name) (hf : free name) (hf' : free' name) :
    w.Free v σ a h name := by
  refine ⟨?_, hn.unclaimed _ (by simp), hn.unclaimed _ (by simp)⟩
  obtain ⟨k, hk⟩ := ha.finds name hn hf
  obtain ⟨k', hk'⟩ := hh.finds name hn hf'
  rw [hk, hk', hσ.helper?]
  exact sameHelper _

theorem Contextual.same (ha : w.Contextual D a free) (hh : v.Contextual D' h free') {σ : Nat → Nat}
    (hσ : D.HelpsAs D' σ) {told : String → Prop}
    (ht : ∀ name, told name → Unclaimed name ∧ w.TellAlike v a h name) {block apart : Nat → Prop}
    {settable : Prop}
    (hb : ∀ r, block r → ∃ body, w.RunsOn r body ∧ v.RunsOn (σ r) body ∧
      (∀ u ∈ body.uses, D.Allows (fun name => free name ∧ free' name) told
        (w.className (.made a) = v.className (.made h)) apart u) ∧
      (apart r → ∀ u ∈ body.uses, AsksApart settable u))
    (hu : ∀ s ∈ D.helperBodies, ∀ u ∈ s.block.uses,
      D.Allows (fun name => free name ∧ free' name) told
        (w.className (.made a) = v.className (.made h)) apart u)
    (hap : ∀ s ∈ D.helperBodies, apart s.handle → ∀ u ∈ s.block.uses, AsksApart settable u)
    (hx : (∃ r, apart r) → w.extras = [] ∧ v.extras = []) :
    w.SameHelpers v σ a h block apart settable := by
  have asks {u : Use} (hp : D.Allows (fun name => free name ∧ free' name) told
      (w.className (.made a) = v.className (.made h)) apart u) : w.Asks v σ a h apart u := by
    rcases hp with ⟨name, rfl, hn⟩ | hp
    · exact .inr (ht name hn).2
    cases u with
    | asked name | written name => exact ha.free_name hh hσ hp.1 hp.2.1 hp.2.2
    | called name => exact .inl (ha.free_name hh hσ hp.1 hp.2.1 hp.2.2)
    | ofClass name =>
      obtain ⟨⟨hn, hf⟩, hr⟩ := hp
      refine ⟨ha.free_name hh hσ hn hf.1 hf.2, hn.unclaimed _ (by simp), fun k r hfind => ?_⟩
      obtain ⟨j, hj⟩ := ha.finds name hn hf.1
      obtain ⟨⟨scope, s⟩, hs, he⟩ := Option.map_eq_some_iff.mp (hj.symm.trans hfind)
      cases scope with
      | ofInstance =>
        cases he
        exact hr s hs
      | ofClass => cases he
    | className => exact hp
    | step => exact hp
  exact {
    left := ha.ofContexts
    right := hh.ofContexts
    special := by
      intro name hn
      obtain ⟨k, hk⟩ := ha.specials name hn
      obtain ⟨k', hk'⟩ := hh.specials name hn
      rw [hk, hk', hσ.helper?]
      cases hd : D.helper? name with
      | some s => exact .inl (sameHelper (some s))
      | none =>
        simp only [Option.map_none, Option.none_or]
        rw [find?_builtIn v, ← find?_builtIn w]
        rcases w.find?_builtIn_cases .object name with hnone | hbuilt
        · rw [hnone]
          exact .inl .absent
        · exact .inr ⟨hbuilt, hbuilt⟩
    ofInstance := by
      rintro r (hr | hr)
      · obtain ⟨row, hrow, rfl⟩ := ha.row_ofInstance hr
        have hm : row.2 ∈ D.helperBodies := List.mem_append_left _ (List.mem_map_of_mem hrow)
        have hright := hh.instanceBodies (row.1, row.2.moved σ)
          (hσ.ofInstance ▸ List.mem_map_of_mem hrow)
        exact ⟨_, ha.instanceBodies row hrow, hright, fun u hu' => asks (hu _ hm u hu'), hap _ hm⟩
      · obtain ⟨body, hl, hr', hp, hx⟩ := hb r hr
        exact ⟨body, hl, hr', fun u hu' => asks (hp u hu'), hx⟩
    ofClass := by
      intro r hr
      obtain ⟨row, hrow, rfl⟩ := ha.row_ofClass hr
      have hm : row.2 ∈ D.helperBodies := List.mem_append_right _ (List.mem_map_of_mem hrow)
      have hright := hh.classBodies (row.1, row.2.moved σ) (hσ.ofClass ▸ List.mem_map_of_mem hrow)
      exact ⟨_, ha.classBodies row hrow, hright, fun u hu' =>
        (hu _ hm u hu').alone fun name hn => (ht name hn).1⟩
    extras := hx }

end World

namespace Machine

variable {w : World} {n : Nat} {b : ClassRef} {D : Definition Stored}

theorem find?_builtIn_ne_helper (w : World) (kind : Kind) (name : String) (k : ClassRef) (x : Value) :
    w.find? (.builtIn kind) name ≠ some (k, .ofObject (.forwards x)) ∧
      w.find? (.builtIn kind) name ≠ some (k, .fixed x) := by
  have found {a : Attribute} (h : w.find? (.builtIn kind) name = some (k, a)) :
      ∃ kind : Kind, kind.attribute? name = some a := by
    rw [World.find?_builtIn] at h
    obtain ⟨kind, _, ha⟩ := List.exists_of_findSome?_eq_some h
    obtain ⟨a', ha', he⟩ := Option.map_eq_some_iff.mp ha
    cases he
    exact ⟨kind, ha'⟩
  constructor
  all_goals
    intro h
    obtain ⟨kind, ha⟩ := found h
    unfold Kind.attribute? at ha
    grind

end Machine

namespace World

variable {w v : World} {b : ClassRef}

/-- A class that has no helpers, and of which the objects are like those of the class of all objects.
-/
structure Helpless (w : World) (b : ClassRef) : Prop where
  records : ∀ k, .made k ∈ w.lineage b → k ∉ recordClasses
  above : .builtIn .object ∈ w.lineage b
  specials : ∀ name ∈ Link.specials, w.find? b name = w.find? (.builtIn .object) name
  makes : ∀ k x, w.find? b "__new__" ≠ some (.made k, x)
  ofInstance : ∀ name k x, w.find? b name ≠ some (k, .ofObject (.forwards x))
  ofClass : ∀ name k x, w.find? b name ≠ some (k, .fixed x)

theorem LeadsTo.helpless (hl : w.LeadsTo v) (hr : w.Rooted b) (h : w.Helpless b) : v.Helpless b where
  records := by
    rw [hl.lineage hr]
    exact h.records
  above := by
    rw [hl.lineage hr]
    exact h.above
  specials name hn := by
    have declared : ∀ name ∈ Link.specials, name ∉ declaredNames := by decide
    rw [hl.find? hr (declared name hn), h.specials name hn, find?_builtIn, find?_builtIn]
  makes k x := by
    rw [hl.find? hr (by decide)]
    exact h.makes k x
  ofInstance name k x hfind := by
    rcases hl.find?_or hr name with he | ⟨k', y, he⟩
    · exact h.ofInstance name k x (he.symm.trans hfind)
    · rw [hfind] at he
      cases he
  ofClass name k x hfind := by
    rcases hl.find?_or hr name with he | ⟨k', y, he⟩
    · exact h.ofClass name k x (he.symm.trans hfind)
    · rw [hfind] at he
      cases he

theorem helpless_object (w : World) : w.Helpless (.builtIn .object) where
  records k hk := by simp [World.lineage, World.above] at hk
  above := List.mem_cons_self
  specials _ _ := rfl
  makes k x := find?_builtIn_ne_made w .object _ k x
  ofInstance name k x := (Machine.find?_builtIn_ne_helper w .object name k x).1
  ofClass name k x := (Machine.find?_builtIn_ne_helper w .object name k x).2

theorem find?_object_none {name : String} (hn : Neutral name) (w : World) :
    w.find? (.builtIn .object) name = none := by
  rw [find?_builtIn]
  simp [Kind.above, hn.unclaimed .object (by simp)]

/-- A class below which definitions are adapted, with helpers that a definition tells: their names are
reserved, and it makes its objects as all classes do. -/
structure Carries (w : World) (b : ClassRef) (B : Definition Stored) : Prop extends w.Helps b B where
  makes : ∀ k x, w.find? b "__new__" ≠ some (.made k, x)
  reserved : ∀ name, B.reserves name = true →
    (Machine.reservedNames w (classValue b)).contains name = true

theorem Helpless.carries (h : w.Helpless b) : w.Carries b .bare where
  records := h.records
  above := h.above
  specials name hn := ⟨0, h.specials name hn⟩
  makes := h.makes
  ofInstance name k x hf := absurd hf (h.ofInstance name k x)
  ofClass name k x hf := absurd hf (h.ofClass name k x)
  instanceBodies _ hr := by cases hr
  classBodies _ hr := by cases hr
  reserved name hr := by
    rw [Definition.not_reserves_bare] at hr
    cases hr

theorem LeadsTo.carries {B : Definition Stored} (hl : w.LeadsTo v) (hr : w.Rooted b)
    (h : w.Carries b B) : v.Carries b B where
  toHelps := hl.helps hr h.toHelps
  makes k x := by
    rw [hl.find? hr (by decide)]
    exact h.makes k x
  reserved name hb := by
    have kept := h.reserved name hb
    rw [List.contains_iff_mem] at kept ⊢
    rcases List.mem_append.mp kept with hm | hm
    · obtain ⟨hm, hs⟩ := List.mem_filter.mp hm
      exact List.mem_append_left _ (List.mem_filter.mpr ⟨hl.attributeNames hr hm, hs⟩)
    · exact List.mem_append_right _ hm

end World

namespace Machine

variable {w : World} {n : Nat} {b : ClassRef} {p : Draft} {D B : Definition Stored} {C : Nat → Prop}
  {reserved names : List String} {text : String}

/-- A class that takes over the helpers of a definition, below one that has helpers, has both. -/
theorem helps_atop {name : String} {own : String → Option Attribute} (hcls : w.ClassAt n name b own)
    (hb : w.Helps b B) (hn : 9 ≤ n) (hd : w.Drafts p D) (hown : D.Covers reserved own)
    (hreserved : ∀ key, B.reserves key = true → reserved.contains key = true)
    (hspecial : ∀ key, key.startsWith "__" = true → key ∉ ClassPlan.standing →
      own key = ((D.helper? key).map helperAttribute).map fun a => (ClassPlan.settle (key, a)).2) :
    w.Helps (.made n) (D.atop B) := by
  have not_hides {key : String} (ho : own key = none) : D.hides key = false := by
    rw [Bool.eq_false_iff]
    intro hk
    obtain ⟨hs, hst, x, hx⟩ := Definition.of_hides hk
    rw [hspecial key hs hst, hx] at ho
    cases ho
  have not_reserves {key : String} (hr : reserved.contains key = false) : B.reserves key = false := by
    rw [Bool.eq_false_iff]
    intro hk
    rw [hreserved key hk] at hr
    cases hr
  exact {
    records k hk := by
      rw [hcls.lineage] at hk
      rcases List.mem_cons.mp hk with he | hk
      · cases he
        simp only [recordClasses, List.mem_cons, List.not_mem_nil, or_false, not_or, answerClass]
        omega
      · exact hb.records k hk
    above := by
      rw [hcls.lineage]
      exact List.mem_cons_of_mem _ hb.above
    specials key hkey := by
      have marked : ∀ key ∈ Link.specials, key.startsWith "__" = true ∧ key ∉ ClassPlan.standing ∧
          key ∉ ["__new__", "__init_subclass__", "__class_getitem__"] := by decide +kernel
      obtain ⟨hs, hst, hm⟩ := marked key hkey
      obtain ⟨k, hk⟩ := hb.specials key hkey
      rw [hcls.find?, hspecial key hs hst, Definition.helper?_atop_special hs hst]
      cases D.helper? key with
      | some h =>
        rw [Option.map_some, Option.map_some, ClassPlan.settle_eq hm]
        exact ⟨n, rfl⟩
      | none => exact ⟨k, hk⟩
    ofInstance key k x hf := by
      rw [hcls.find?] at hf
      cases ho : own key with
      | none =>
        rw [ho] at hf
        obtain ⟨s, hs, he⟩ := hb.ofInstance key k x hf
        have hides := not_hides ho
        exact ⟨s, List.mem_append_right _ (List.mem_filter.mpr ⟨hs, by rw [hides]; rfl⟩), he⟩
      | some a =>
        rw [ho] at hf
        cases hf
        obtain ⟨hr, s, hs, he⟩ := hown.ofInstance key x ho
        have reserves := not_reserves hr
        exact ⟨s, List.mem_append_left _ (List.mem_filter.mpr ⟨hs, by rw [reserves]; rfl⟩), he⟩
    ofClass key k x hf := by
      rw [hcls.find?] at hf
      cases ho : own key with
      | none =>
        rw [ho] at hf
        obtain ⟨s, hs, he⟩ := hb.ofClass key k x hf
        have hides := not_hides ho
        exact ⟨s, List.mem_append_right _ (List.mem_filter.mpr ⟨hs, by rw [hides]; rfl⟩), he⟩
      | some a =>
        rw [ho] at hf
        cases hf
        obtain ⟨hr, s, hs, he⟩ := hown.ofClass key x ho
        have reserves := not_reserves hr
        exact ⟨s, List.mem_append_left _ (List.mem_filter.mpr ⟨hs, by rw [reserves]; rfl⟩), he⟩
    instanceBodies row hr := by
      rcases List.mem_append.mp hr with hr | hr
      · exact hd.instanceBodies row (List.mem_of_mem_filter hr)
      · exact hb.instanceBodies row (List.mem_of_mem_filter hr)
    classBodies row hr := by
      rcases List.mem_append.mp hr with hr | hr
      · exact hd.classBodies row (List.mem_of_mem_filter hr)
      · exact hb.classBodies row (List.mem_of_mem_filter hr) }

theorem ServedTool.contextual {indent : Value} {s : InputSchema}
    (h : ServedTool w n b p D indent text s C) (hn : 9 ≤ n) (hd : w.Drafts p D) :
    w.Contextual D n (fun _ => True) := by
  obtain ⟨own, hcls, ha⟩ := h.helpers
  have hhelps := helps_atop hcls w.helpless_object.carries.toHelps hn hd ha.covers
    (fun key hr => by
      rw [Definition.not_reserves_bare] at hr
      cases hr)
    fun key _ hs => ha.helpers key hs
  rw [Definition.atop_bare] at hhelps
  refine { hhelps with
    rooted := hcls.rooted fun k hk => by simp [World.lineage, World.above] at hk
    finds := fun key hkey _ => ⟨n, ?_⟩ }
  rw [hcls.find?, w.find?_object_none hkey, Option.or_none, ha.helpers key hkey.common.notStanding]
  cases D.helper? key with
  | none => rfl
  | some x =>
    rw [Option.map_some, Option.map_some, hkey.common.settle_eq]
    rfl

/-- Below a class that has helpers, a name finds the helper that is there, or the one that was taken
over where nothing is there. -/
theorem FunctionTool.contextual {s : Shelf} {t : ParameterTable}
    (h : FunctionTool w n b p D reserved text names s t C) (hn : 9 ≤ n) (hd : w.Drafts p D)
    (hroot : w.Rooted b) (hb : w.Helps b B)
    (hreserved : ∀ key, B.reserves key = true → reserved.contains key = true)
    (hspecial : ∀ key, key.startsWith "__" = true → reserved.contains key = false) :
    w.Contextual (D.atop B) n fun key => (reserved.contains key = false ∨ (B.helper? key).isSome) ∧
      w.FindsHelper b B key ∧ key ∉ setNames := by
  obtain ⟨own, hcls, ha⟩ := h.tool
  have marked : ∀ key ∈ setNames, key.startsWith "__" = false := by decide +kernel
  refine { helps_atop hcls hb hn hd ha.covers hreserved fun key hs hst => ?_ with
    rooted := hcls.rooted hroot
    finds := fun key hkey hf => ?_ }
  · rw [ha.helpers key hst fun hk => by rw [marked key hk] at hs; cases hs]
    unfold Definition.free?
    rw [hspecial key hs]
    rfl
  · obtain ⟨hfree, ⟨k, hk⟩, hset⟩ := hf
    unfold World.FindsHelper
    rw [hcls.find?, hk]
    cases hs : key.startsWith "__" with
    | true =>
      rw [ha.own_unreserved hkey.common hset (hspecial key hs),
        Definition.helper?_atop_special hs hkey.common.notStanding]
      cases D.helper? key with
      | some x => exact ⟨n, rfl⟩
      | none => exact ⟨k, rfl⟩
    | false =>
      rw [Definition.helper?_atop_plain hs]
      cases hx : B.helper? key with
      | some x =>
        have hr : reserved.contains key = true := hreserved key (Definition.reserves_some hs hx)
        rw [ha.own_none hkey.common.notStanding hset (.inl hr)]
        exact ⟨k, rfl⟩
      | none =>
        have hr : reserved.contains key = false := hfree.resolve_right (by rw [hx]; exact Bool.false_ne_true)
        rw [ha.own_unreserved hkey.common hset hr]
        cases D.helper? key with
        | some x => exact ⟨n, rfl⟩
        | none => exact ⟨n, rfl⟩

theorem reserved_below {name key : String} {own : String → Option Attribute}
    (h : w.ClassAt n name b own) (hr : (reservedNames w (World.classValue b)).contains key = true) :
    (reservedNames w (World.classValue (.made n))).contains key = true := by
  rw [List.contains_iff_mem] at hr ⊢
  rcases List.mem_append.mp hr with hm | hm
  · obtain ⟨hm, hs⟩ := List.mem_filter.mp hm
    exact List.mem_append_left _ (List.mem_filter.mpr ⟨h.mem_attributeNames hm, hs⟩)
  · exact List.mem_append_right _ hm

theorem not_reserved {name : String} (h : name.startsWith "__" = true) :
    (reservedNames w (World.classValue b)).contains name = false := by
  rw [Bool.eq_false_iff]
  intro hc
  rcases List.mem_append.mp (List.contains_iff_mem.mp hc) with hm | hm
  · rw [List.mem_filter, h] at hm
    exact absurd hm.2 (by decide)
  · have plain : ∀ name ∈ ["execute", "definition"], name.startsWith "__" = false := by decide +kernel
    rw [plain name hm] at h
    cases h

/-- What a definition was adapted to is a class below which definitions are adapted in turn. -/
theorem FunctionTool.carries {s : Shelf} {t : ParameterTable}
    (h : FunctionTool w n b p D (reservedNames w (World.classValue b)) text names s t C) (hn : 9 ≤ n)
    (hd : w.Drafts p D) (hroot : w.Rooted b) (hb : w.Carries b B)
    (hset : ∀ key ∈ setNames, (reservedNames w (World.classValue b)).contains key = true)
    (hmaker : D.helper? "__new__" = none) : w.Carries (.made n) (D.atop B) := by
  obtain ⟨own, hcls, ha⟩ := h.tool
  have hctx := h.contextual hn hd hroot hb.toHelps hb.reserved fun _ => not_reserved
  refine { hctx.toHelps with makes := fun k x => ?_, reserved := fun key hkey => ?_ }
  · rw [hcls.find?_above (ha.own_none (by decide) (by decide) (.inr hmaker))]
    exact hb.makes k x
  · obtain ⟨hs, x, hx⟩ := Definition.of_reserves hkey
    rw [Definition.helper?_atop_plain hs] at hx
    cases hB : B.helper? key with
    | some y => exact reserved_below hcls (hb.reserved key (Definition.reserves_some hs hB))
    | none =>
      rw [hB, Option.none_or] at hx
      cases hr : (reservedNames w (World.classValue b)).contains key with
      | true => exact reserved_below hcls hr
      | false =>
        have unset : key ∉ setNames := fun hm => by
          rw [hset key hm] at hr
          cases hr
        have held := ha.own_unreserved (common_of_startsWith hs) unset hr
        rw [hx] at held
        exact mem_reservedNames hs (World.mem_attributeNames (hcls.find?_own held))

end Machine

/-! ## What is stored in a definition -/

namespace World

variable {w : World} {p : Draft} {D : Definition Stored} {C : Nat → Prop}

theorem Declares.shows_block (h : w.Declares p D C) :
    w.Shows p.object "execute_block" (blockValue D.block) :=
  h.object.shows h.bundled (by decide) (by decide)
    (show Session.start.find? (.made definitionClass) _ = some (.made 3, .view "_execute_block")
      from rfl) rfl

theorem Declares.shows_name (h : w.Declares p D C) : w.Shows p.object "name" D.name :=
  h.object.shows h.bundled (by decide) (by decide)
    (show Session.start.find? (.made definitionClass) _ = some (.made 3, .view "_name") from rfl) rfl

theorem Declares.stores (h : w.Declares p D C) {q : Nat → Prop}
    (hq : ∀ s, D.block = some s → q s.handle) : w.Stores p.object q := by
  have hblock := h.shows_block
  cases hs : D.block with
  | some s =>
    rw [hs] at hblock
    exact .block hblock (hq s hs)
  | none =>
    rw [hs] at hblock
    exact .nothing fun m v hv => Machine.exec_noBlock h.data (h.values _ List.mem_cons_self).1 hblock
      h.shows_name m v hv

end World

/-! ## Blocks that ask for little -/

theorem Definition.Permits.mono {D : Definition Stored} {free free' : String → Prop}
    {sameName sameName' : Prop} {apart : Nat → Prop} (hf : ∀ name, free name → free' name)
    (hs : sameName → sameName') {u : Use} (h : D.Permits free sameName apart u) :
    D.Permits free' sameName' apart u := by
  cases u with
  | asked name | called name | written name => exact ⟨h.1, hf _ h.2⟩
  | ofClass name => exact ⟨⟨h.1.1, hf _ h.1.2⟩, h.2⟩
  | className => exact hs h
  | step => exact h

/-- A block and the helpers of a definition that ask little of their contexts: under the names that
they ask for nothing is found that the language gives to all objects, and they perform no steps.
Helpers of instances that are called through the class may have any value as their context: they ask
it for nothing that the language gives to values. -/
structure Definition.Modest (D : Definition Stored) (block : Option Stored) (free : String → Prop)
    (sameName settable : Prop) (apart : Nat → Prop) : Prop where
  permits : ∀ s ∈ block.toList ++ D.helperBodies, ∀ u ∈ s.block.uses, D.Permits free sameName apart u
  apart : ∀ s ∈ block.toList ++ D.helperBodies, apart s.handle →
    ∀ u ∈ s.block.uses, AsksApart settable u

/-- A block and the helpers of a definition that ask as little, but for getters of the host. -/
structure Definition.Discreet (D : Definition Stored) (block : Option Stored) (free told : String → Prop)
    (sameName settable : Prop) (apart : Nat → Prop) : Prop where
  allows : ∀ s ∈ block.toList ++ D.helperBodies, ∀ u ∈ s.block.uses,
    D.Allows free told sameName apart u
  apart : ∀ s ∈ block.toList ++ D.helperBodies, apart s.handle →
    ∀ u ∈ s.block.uses, AsksApart settable u

theorem Definition.Modest.discreet {D : Definition Stored} {block : Option Stored}
    {free told : String → Prop} {sameName settable : Prop} {apart : Nat → Prop}
    (h : D.Modest block free sameName settable apart) :
    D.Discreet block free told sameName settable apart :=
  ⟨fun s hs u hu => .inr (h.permits s hs u hu), h.apart⟩

theorem Definition.Discreet.mono {D : Definition Stored} {block : Option Stored}
    {free free' told told' : String → Prop} {sameName settable : Prop} {apart : Nat → Prop}
    (h : D.Discreet block free told sameName settable apart) (hf : ∀ name, free name → free' name)
    (ht : ∀ name, told name → told' name) : D.Discreet block free' told' sameName settable apart :=
  ⟨fun s hs u hu => (h.allows s hs u hu).imp (fun ⟨name, he, hn⟩ => ⟨name, he, ht name hn⟩)
    fun hp => hp.mono hf id, h.apart⟩

theorem Definition.Discreet.alone {D : Definition Stored} {block : Option Stored}
    {free told : String → Prop} {sameName settable : Prop} {apart : Nat → Prop}
    (h : D.Discreet block free told sameName settable apart) (ht : ∀ name, told name → Unclaimed name)
    {name : String} {s : Stored} (hs : D.helper? name = some (.ofClass, s)) :
    ∀ u ∈ s.block.uses, AsksAlone u := by
  have hmem : s ∈ D.helperBodies :=
    List.mem_append_right _ (List.mem_map_of_mem (D.mem_classHelpers hs))
  exact fun u hu => (h.allows s (List.mem_append_right _ hmem) u hu).alone ht

theorem Definition.Modest.mono {D : Definition Stored} {block : Option Stored}
    {free free' : String → Prop} {sameName settable : Prop} {apart : Nat → Prop}
    (h : D.Modest block free sameName settable apart) (hf : ∀ name, free name → free' name) :
    D.Modest block free' sameName settable apart :=
  ⟨fun s hs u hu => (h.permits s hs u hu).mono hf id, h.apart⟩

theorem Definition.Permits.atop {D B : Definition Stored} {free : String → Prop} {sameName : Prop}
    {apart : Nat → Prop} {u : Use} (hd : D.Permits free sameName apart u)
    (hb : B.Permits free sameName apart u) : (D.atop B).Permits free sameName apart u := by
  cases u with
  | ofClass name =>
    refine ⟨hd.1, fun s hs => ?_⟩
    rcases Definition.helper?_atop_cases hd.1.1.common.notStanding with he | he
    · exact hd.2 s (he.symm.trans hs)
    · exact hb.2 s (he.symm.trans hs)
  | asked name | called name | written name | className | step => exact hd

/-- What all blocks may ask with the helpers of two definitions, they may ask with both. -/
theorem Definition.Discreet.atop {D B : Definition Stored} {block : Option Stored}
    {free told : String → Prop} {sameName settable : Prop} {apart : Nat → Prop}
    (h : ∀ s ∈ block.toList ++ (D.helperBodies ++ B.helperBodies),
      (∀ u ∈ s.block.uses, (∃ name, u = .called name ∧ told name) ∨
        D.Permits free sameName apart u ∧ B.Permits free sameName apart u) ∧
      (apart s.handle → ∀ u ∈ s.block.uses, AsksApart settable u)) :
    (D.atop B).Discreet block free told sameName settable apart := by
  have mem {s : Stored} (hs : s ∈ block.toList ++ (D.atop B).helperBodies) :
      s ∈ block.toList ++ (D.helperBodies ++ B.helperBodies) := by
    rcases List.mem_append.mp hs with hs | hs
    · exact List.mem_append_left _ hs
    · exact List.mem_append_right _ (List.mem_append.mpr (Definition.of_mem_atop hs))
  exact ⟨fun s hs u hu => ((h s (mem hs)).1 u hu).imp_right fun hp => hp.1.atop hp.2,
    fun s hs => (h s (mem hs)).2⟩

namespace World

variable {w v : World} {p p' : Draft} {D D' E E' : Definition Stored} {C C' : Nat → Prop} {a h : Nat}
  {free free' told : String → Prop} {apart : Nat → Prop} {sameName settable : Prop} {σ : Nat → Nat}

/-- On objects of two classes that find the helpers of definitions with the same helpers, the same
block of two definitions runs with the same helpers. -/
theorem Contextual.same_stored (ha : w.Contextual D a free) (hh : v.Contextual D' h free')
    (hσ : D.HelpsAs D' σ) (hd : w.Declares p E C) (hd' : v.Declares p' E' C')
    (hE : E'.block = E.block.map (Stored.moved σ))
    (ht : ∀ name, told name → Unclaimed name ∧ w.TellAlike v a h name)
    (hm : D.Discreet E.block (fun name => free name ∧ free' name) told sameName settable apart)
    (hs : sameName → w.className (.made a) = v.className (.made h))
    (hx : (∃ r, apart r) → w.extras = [] ∧ v.extras = []) {block : Nat → Prop}
    (hb : ∀ r, block r → ∃ s, E.block = some s ∧ s.handle = r) :
    w.SameHelpers v σ a h block apart settable := by
  have allows {s : Stored} (hmem : s ∈ E.block.toList ++ D.helperBodies) : ∀ u ∈ s.block.uses,
      D.Allows (fun name => free name ∧ free' name) told
        (w.className (.made a) = v.className (.made h)) apart u :=
    fun u hu => (hm.allows s hmem u hu).imp_right fun hp => hp.mono (fun _ => id) hs
  refine ha.same hh hσ ht ?_ (fun s hs' => allows (List.mem_append_right _ hs'))
    (fun s hs' => hm.apart s (List.mem_append_right _ hs')) hx
  intro r hr
  obtain ⟨s, hblock, rfl⟩ := hb r hr
  have hmem : s ∈ E.block.toList ++ D.helperBodies :=
    List.mem_append_left _ (by rw [hblock]; exact List.mem_singleton_self s)
  have hblock' : E'.block = some (s.moved σ) := by rw [hE, hblock, Option.map_some]
  exact ⟨s.block, hd.block s hblock, hd'.block _ hblock', allows hmem, hm.apart s hmem⟩

/-- On objects of two classes that find the helpers of one definition, what a definition stores runs
with the same helpers. -/
theorem Declares.stores_same (hd : w.Declares p D' C) (ha : w.Contextual D a free)
    (hh : w.Contextual D h free')
    (hm : D.Modest D'.block (fun name => free name ∧ free' name) sameName settable apart)
    (hs : sameName → w.className (.made a) = w.className (.made h))
    (hx : (∃ r, apart r) → w.extras = []) :
    w.Stores p.object fun r => w.SameHelpers w id a h (· = r) apart settable := by
  refine hd.stores fun s hblock => ha.same_stored hh (Definition.HelpsAs.refl D) hd hd ?_
    (fun _ => False.elim) hm.discreet hs (fun he => ⟨hx he, hx he⟩) fun r hr => ⟨s, hblock, hr.symm⟩
  rw [Stored.moved_id, Option.map_id]
  rfl

end World

end Toolwright
