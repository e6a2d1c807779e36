import Toolwright.Proofs.Declaration.Defining

/-!
# Classes that are made

A class that is made holds its attributes, and finds above itself what the class finds that it was
made of.
-/

namespace Toolwright

set_option autoImplicit false

/-! ## Failures -/

def Hosted {α : Type} (x : Except Fault α) : Prop :=
  ∀ kind label module, x ≠ .error (.hostMissing kind label module)

namespace Hosted

variable {α β : Type} {x : Except Fault α}

theorem ok (a : α) : Hosted (.ok a) := nofun

theorem fault {f : Fault} (h : ∀ kind label module, f ≠ .hostMissing kind label module) :
    Hosted (.error f : Except Fault α) :=
  fun kind label module he => h kind label module (Except.error.inj he)

theorem error {f : Fault} (h : Hosted (.error f : Except Fault α)) :
    Hosted (.error f : Except Fault β) := by
  rintro kind label module ⟨⟩
  exact h kind label module rfl

theorem of_eq (h : Hosted x) {f : Fault} (hx : x = .error f) : Hosted (.error f : Except Fault β) :=
  (hx ▸ h).error

theorem bind {f : α → Except Fault β} (hx : Hosted x) (hf : ∀ a, Hosted (f a)) :
    Hosted (x >>= f) := by
  cases x with
  | error e => exact hx.error
  | ok a => exact hf a

theorem map {f : α → β} (hx : Hosted x) : Hosted (x.map f) := by
  cases x with
  | error e => exact hx.error
  | ok a => exact .ok _

theorem mapM {f : α → Except Fault β} (hf : ∀ a, Hosted (f a)) (xs : List α) : Hosted (xs.mapM f) := by
  induction xs with
  | nil => exact .ok []
  | cons x xs ih =>
    rw [List.mapM_cons]
    exact (hf x).bind fun _ => ih.bind fun _ => .ok _

end Hosted

namespace Value

mutual

theorem hosted_printed (v : Value) : Hosted v.printed := by
  cases v with
  | int n =>
    unfold printed intText
    split
    · exact .ok _
    · exact .fault (by simp)
  | list xs => exact (hosted_printedItems xs).bind fun _ => .ok _
  | tuple xs =>
    refine (hosted_printedItems xs).bind fun parts => ?_
    split <;> exact .ok _
  | dict rows => exact (hosted_printedRows rows).bind fun _ => .ok _
  | mapping rows => exact (hosted_printedRows rows).bind fun _ => .ok _
  | set xs =>
    unfold printed
    split
    · exact .ok _
    · exact (hosted_printedItems xs).bind fun _ => .ok _
  | frozenset xs =>
    unfold printed
    split
    · exact .ok _
    · exact (hosted_printedItems xs).bind fun _ => .ok _
  | record shape fields => exact (hosted_printedItems fields).bind fun _ => .ok _
  | _ => exact .ok _

theorem hosted_printedItems (xs : List Value) : Hosted (printedItems xs) := by
  cases xs with
  | nil => exact .ok []
  | cons x xs =>
    exact (hosted_printed x).bind fun _ => (hosted_printedItems xs).bind fun _ => .ok _

theorem hosted_printedRows (rows : List (Value × Value)) : Hosted (printedRows rows) := by
  cases rows with
  | nil => exact .ok []
  | cons row rows =>
    obtain ⟨k, v⟩ := row
    exact (hosted_printed k).bind fun _ => (hosted_printed v).bind fun _ =>
      (hosted_printedRows rows).bind fun _ => .ok _

end

end Value

namespace World

mutual

theorem hosted_expand {enter : Opaque → Except Fault Value} (he : ∀ o, Hosted (enter o))
    (v : Value) : Hosted (expand enter v) := by
  cases v with
  | list xs | tuple xs | set xs | frozenset xs | record shape xs =>
    exact (hosted_expandItems he xs).bind fun _ => .ok _
  | dict rows | mapping rows => exact (hosted_expandRows he rows).bind fun _ => .ok _
  | opaqueRef o => exact he o
  | _ => exact .ok _

theorem hosted_expandItems {enter : Opaque → Except Fault Value} (he : ∀ o, Hosted (enter o))
    (xs : List Value) : Hosted (expandItems enter xs) := by
  cases xs with
  | nil => exact .ok []
  | cons x xs => exact (hosted_expand he x).bind fun _ => (hosted_expandItems he xs).bind fun _ => .ok _

theorem hosted_expandRows {enter : Opaque → Except Fault Value} (he : ∀ o, Hosted (enter o))
    (rows : List (Value × Value)) : Hosted (expandRows enter rows) := by
  cases rows with
  | nil => exact .ok []
  | cons row rows =>
    obtain ⟨k, v⟩ := row
    exact (hosted_expand he k).bind fun _ => (hosted_expand he v).bind fun _ =>
      (hosted_expandRows he rows).bind fun _ => .ok _

end

theorem hosted_kept (w : World) (v : Value) (name : String) : Hosted (w.kept v name) := by
  unfold kept
  split
  · exact .ok _
  · exact .ok _
  · unfold noAttribute
    split <;> exact fun _ _ _ h => by cases h

theorem hosted_inside (w : World) {o : Opaque} {x : Except Fault Value} (hx : w.inside? o = some x) :
    Hosted x := by
  unfold inside? at hx
  split at hx
  · cases hx
    exact .ok _
  · obtain ⟨shape, -, rfl⟩ := Option.map_eq_some_iff.mp hx
    exact (Hosted.mapM (fun name => w.hosted_kept _ name) _).bind fun _ => .ok _
  · cases hx

theorem hosted_follow {inside? : Opaque → Option (Except Fault Value)}
    {again : Value → Except Fault Value} (hi : ∀ o x, inside? o = some x → Hosted x)
    (ha : ∀ v, Hosted (again v)) (depth : Nat) (around : List Opaque) (o : Opaque) :
    Hosted (follow inside? again depth around o) := by
  induction depth generalizing around o with
  | zero => exact .fault (by simp)
  | succ depth ih =>
    unfold follow
    split
    · exact .ok _
    · rename_i contents hc
      split
      · exact (hi o contents hc).bind ha
      · exact (hi o contents hc).bind fun v => hosted_expand (fun o' => ih _ o') v

theorem hosted_printedOf (w : World) (x : Value) : Hosted (w.printedOf x) := by
  refine Hosted.bind (hosted_expand (fun o => hosted_follow (fun o x hx => ?_) (fun _ => .ok _) _ _ o) x)
    fun y => y.hosted_printed
  split at hx
  · cases hx
  · exact w.hosted_inside hx

theorem hosted_textOf (w : World) (x : Value) : Hosted (w.textOf x) := by
  unfold textOf
  split
  · exact .ok _
  · exact .fault (by simp)
  · exact .ok _
  · exact w.hosted_printedOf x

end World

/-! ## New classes -/

def World.withClass (w : World) (cls : HostClass) : World := { w with classes := w.classes ++ [cls] }

/-- The rooms of the objects of a class, unless the class above has them. -/
def roomsBelow (w : World) (base : ClassRef) (attributes : List (String × Attribute)) :
    List (String × Attribute) :=
  if !w.isOpen base then
    (ClassPlan.roomNames.filter fun room => (Table.find? attributes room).isNone).map fun room =>
      (room, .field .object room)
  else []

/-- The class that is made of a name, a class above and attributes that name no slots. -/
def builtClass (w : World) (name : String) (base : ClassRef)
    (attributes : List (String × Attribute)) : HostClass where
  name := name
  qualifiedName := name
  base := base
  lineage := w.lineage base
  attributes := Table.ofRows (ClassPlan.complete
    (Table.erase "__qualname__" (Table.ofRows attributes))
    (roomsBelow w base (Table.ofRows attributes)))
  isOpen := !w.isOpen base

namespace World

variable {w v : World} {n : Nat} {name key : String} {base : ClassRef} {own : String → Option Attribute}
  {changed : Nat → Prop}

/-- A class stands below another one and has attributes of its own. -/
structure ClassAt (w : World) (n : Nat) (name : String) (base : ClassRef)
    (own : String → Option Attribute) : Prop where
  cls : ∃ cls, w.classes[n]? = some cls ∧ cls.name = name ∧ cls.lineage = w.lineage base ∧
    ∀ key, Table.find? cls.attributes key = own key
  opens : w.isOpen (.made n) = true

theorem ClassAt.lineage (h : w.ClassAt n name base own) :
    w.lineage (.made n) = .made n :: w.lineage base := by
  obtain ⟨cls, hc, _, hl, _⟩ := h.cls
  simp only [World.lineage, above, hc, Option.map_some, Option.getD_some] at hl ⊢
  rw [hl]

theorem ClassAt.className (h : w.ClassAt n name base own) : w.className (.made n) = name := by
  obtain ⟨cls, hc, hn, _⟩ := h.cls
  simp only [World.className, hc, Option.map_some, Option.getD_some, hn]

theorem ClassAt.own? (h : w.ClassAt n name base own) (key : String) :
    w.own? (.made n) key = own key := by
  obtain ⟨cls, hc, _, _, ha⟩ := h.cls
  simp only [World.own?, hc, Option.bind_some, ha]

/-- A class finds what it has itself, and else what the class above finds. -/
theorem ClassAt.find? (h : w.ClassAt n name base own) (key : String) :
    w.find? (.made n) key = ((own key).map (ClassRef.made n, ·)).or (w.find? base key) := by
  unfold World.find?
  rw [h.lineage, List.findSome?_cons, h.own?]
  cases own key <;> rfl

theorem ClassAt.find?_own (h : w.ClassAt n name base own) {a : Attribute} (ha : own key = some a) :
    w.find? (.made n) key = some (.made n, a) := by
  rw [h.find?, ha]
  rfl

theorem ClassAt.find?_above (h : w.ClassAt n name base own) (ha : own key = none) :
    w.find? (.made n) key = w.find? base key := by
  rw [h.find?, ha]
  rfl

theorem ClassAt.rooted (h : w.ClassAt n name base own) (hb : w.Rooted base) : w.Rooted (.made n) := by
  intro k hk
  rw [h.lineage] at hk
  rcases List.mem_cons.mp hk with he | hk
  · cases he
    obtain ⟨cls, hc, _⟩ := h.cls
    exact ⟨cls, hc⟩
  · exact hb k hk

theorem Later.classAt (hl : w.Later v changed) (h : w.ClassAt n name base own)
    (hb : w.Rooted base) : v.ClassAt n name base own := by
  obtain ⟨cls, hc, hn, hlin, ha⟩ := h.cls
  exact ⟨⟨cls, hl.hostClass hc, hn, hlin.trans (hl.lineage hb).symm, ha⟩,
    (hl.isOpen (h.rooted hb)).trans h.opens⟩

theorem lineage_setAttribute (w : World) (k : Nat) (name : String) (a : Attribute) (c : ClassRef) :
    (w.setAttribute k name a).lineage c = w.lineage c := by
  cases c with
  | builtIn k => rfl
  | made n =>
    simp only [World.lineage, above, setAttribute, modifyClass, List.getElem?_modify]
    cases w.classes[n]? with
    | none => rfl
    | some cls => split <;> rfl

theorem isOpen_setAttribute (w : World) (k : Nat) (name : String) (a : Attribute) (c : ClassRef) :
    (w.setAttribute k name a).isOpen c = w.isOpen c := by
  unfold World.isOpen
  rw [lineage_setAttribute]
  refine congrArg (List.any _) (funext fun holder => ?_)
  cases holder with
  | builtIn k => rfl
  | made n =>
    simp only [setAttribute, modifyClass, List.getElem?_modify]
    cases w.classes[n]? with
    | none => rfl
    | some cls => split <;> rfl

theorem ClassAt.set (h : w.ClassAt n name base own) (set : String) (a : Attribute) :
    (w.setAttribute n set a).ClassAt n name base fun key => if set = key then some a else own key := by
  obtain ⟨cls, hc, hn, hl, ha⟩ := h.cls
  refine ⟨⟨{ cls with attributes := Table.insert set a cls.attributes }, ?_, hn, ?_, ?_⟩,
    (isOpen_setAttribute _ _ _ _ _).trans h.opens⟩
  · simp [setAttribute, modifyClass, hc]
  · rw [lineage_setAttribute]
    exact hl
  · intro key
    rw [Table.find?_insert, ha]

theorem isOpen_made {cls : HostClass} (hc : w.classes[n]? = some cls)
    (hl : cls.lineage = w.lineage base) :
    w.isOpen (.made n) = (cls.isOpen || w.isOpen base) := by
  unfold World.isOpen
  rw [World.lineage, above, hc, List.any_cons, Option.map_some, Option.getD_some, hl]
  dsimp only
  rw [hc]
  rfl

theorem later_withClass (w : World) (cls : HostClass) : w.Later (w.withClass cls) (fun _ => False) :=
  (Later.refl w _).newClass cls

theorem classAt_withClass (w : World) (cls : HostClass) (hb : w.Rooted base)
    (hl : cls.lineage = w.lineage base) (ho : cls.isOpen = !w.isOpen base) :
    (w.withClass cls).ClassAt w.classes.length cls.name base (Table.find? cls.attributes) where
  cls := ⟨cls, by simp [withClass], rfl, hl.trans ((w.later_withClass cls).lineage hb).symm,
    fun _ => rfl⟩
  opens := by
    have hcls : (w.withClass cls).classes[w.classes.length]? = some cls := by simp [withClass]
    have hlater := w.later_withClass cls
    rw [isOpen_made hcls (hl.trans (hlater.lineage hb).symm), hlater.isOpen hb, ho,
      Bool.not_or_self]

end World

/-! ## What a class is given in any case -/

namespace ClassPlan

/-- The names under which a class holds more than its attributes, or something else. -/
def standing : List String := ["__qualname__", "__module__", "__doc__", "__hash__", "__dict__",
  "__weakref__"]

theorem settle_key (row : String × Attribute) : (settle row).1 = row.1 := by
  unfold settle
  split <;> rfl

theorem map_settle (rows : List (String × Attribute)) :
    rows.map settle = rows.map fun row => (row.1, (settle (row.1, row.2)).2) := by
  refine List.map_congr_left fun row _ => ?_
  exact Prod.ext (settle_key row) rfl

theorem settle_eq {key : String}
    (h : key ∉ ["__new__", "__init_subclass__", "__class_getitem__"]) (a : Attribute) :
    (settle (key, a)).2 = a := by
  unfold settle
  split
  all_goals first
    | rfl
    | (rename_i he; cases he; exact absurd (by simp) h)

def added (attributes rooms : List (String × Attribute)) : List (String × Attribute) :=
  (if (Table.find? attributes "__module__").isSome then [] else
    [("__module__", Attribute.value (.str "__main__"))]) ++ rooms ++
  (if (Table.find? attributes "__doc__").isSome then [] else
    [("__doc__", Attribute.value .null)]) ++
  (if (Table.find? attributes "__eq__").isSome && !(Table.find? attributes "__hash__").isSome then
    [("__hash__", Attribute.value .null)] else [])

/-- Where nothing else is added under a name, a class holds there what it was made with. -/
theorem find?_complete_given {attributes rooms : List (String × Attribute)} {key : String}
    (hk : key ∉ Table.keys (added attributes rooms)) (hd : (Table.keys attributes).Nodup) :
    Table.find? (Table.ofRows (complete attributes rooms)) key =
      (Table.find? attributes key).map fun a => (settle (key, a)).2 := by
  have split : complete attributes rooms = attributes.map settle ++ added attributes rooms := by
    simp only [complete, added, List.append_assoc]
  rw [split, Table.find?_ofRows_append, Table.find?_ofRows_of_not_mem hk, Option.none_or, map_settle,
    Table.ofRows_map (fun key a => (settle (key, a)).2), Table.ofRows_of_nodup hd,
    Table.find?_mapValues (fun key a => (settle (key, a)).2)]

theorem find?_complete {attributes rooms : List (String × Attribute)} {key : String}
    (hk : key ∉ standing) (hr : key ∉ Table.keys rooms) (hd : (Table.keys attributes).Nodup) :
    Table.find? (Table.ofRows (complete attributes rooms)) key =
      (Table.find? attributes key).map fun a => (settle (key, a)).2 := by
  refine find?_complete_given ?_ hd
  simp only [standing, List.mem_cons, List.not_mem_nil, or_false, not_or] at hk
  simp only [added, Table.keys, List.map_append, List.mem_append, not_or] at hr ⊢
  refine ⟨⟨⟨?_, hr⟩, ?_⟩, ?_⟩ <;> split <;> simp [hk]

theorem find?_complete_told {attributes rooms : List (String × Attribute)} {key : String}
    (hk : key ∈ ["__module__", "__doc__"]) (hr : key ∉ Table.keys rooms)
    (hd : (Table.keys attributes).Nodup) {a : Attribute} (ha : Table.find? attributes key = some a) :
    Table.find? (Table.ofRows (complete attributes rooms)) key = some a := by
  have more : key ∉ Table.keys (added attributes rooms) := by
    simp only [added, Table.keys, List.map_append, List.mem_append, not_or] at hr ⊢
    simp only [List.mem_cons, List.not_mem_nil, or_false] at hk
    rcases hk with rfl | rfl
    all_goals
      rw [ha]
      refine ⟨⟨⟨?_, hr⟩, ?_⟩, ?_⟩ <;> split <;> simp_all
  rw [find?_complete_given more hd, ha, Option.map_some, settle_eq (by
    rintro hm
    simp only [List.mem_cons, List.not_mem_nil, or_false] at hk hm
    rcases hk with rfl | rfl <;> simp at hm)]

end ClassPlan

/-- The class that is made of attributes, of slots and of whether its objects get a room. -/
def plannedClass (w : World) (name qualified : String) (base : ClassRef)
    (attributes : List (String × Attribute)) (plan : List String × Bool) : HostClass where
  name := name
  qualifiedName := qualified
  base := base
  lineage := w.lineage base
  attributes := Table.ofRows (ClassPlan.complete
    (Table.erase "__qualname__" (Table.ofRows attributes))
    (plan.1.map (fun slot => (slot, .slot w.classes.length slot)) ++
      if plan.2 then
        (ClassPlan.roomNames.filter fun room =>
          (Table.find? (Table.ofRows attributes) room).isNone).map fun room =>
            (room, .field .object room)
      else []))
  isOpen := plan.2

theorem plannedClass_plain (w : World) (name : String) (base : ClassRef)
    (attributes : List (String × Attribute)) :
    plannedClass w name name base attributes ([], !w.isOpen base) =
      builtClass w name base attributes := rfl

theorem find?_plannedClass {w : World} {name qualified key : String} {base : ClassRef}
    {attributes : List (String × Attribute)} {plan : List String × Bool}
    (hk : key ∉ ClassPlan.standing) (hs : key ∉ plan.1) :
    Table.find? (plannedClass w name qualified base attributes plan).attributes key =
      (Table.find? (Table.ofRows attributes) key).map fun a => (ClassPlan.settle (key, a)).2 := by
  have hd : (Table.keys (Table.erase "__qualname__" (Table.ofRows attributes))).Nodup :=
    (Table.nodup_keys_ofRows attributes).sublist (List.Sublist.map _ List.filter_sublist)
  have hne : key ≠ "__qualname__" := by
    rintro rfl
    exact hk (by decide)
  show Table.find? (Table.ofRows (ClassPlan.complete _ _)) key = _
  rw [ClassPlan.find?_complete hk _ hd, Table.find?_erase, if_neg hne.symm]
  intro hm
  unfold Table.keys at hm
  rw [List.map_append, List.mem_append, List.map_map] at hm
  rcases hm with hm | hm
  · obtain ⟨slot, hslot, rfl⟩ := List.mem_map.mp hm
    exact hs hslot
  · split at hm
    · simp only [List.map_map, List.mem_map, List.mem_filter, ClassPlan.roomNames, List.mem_cons,
        List.not_mem_nil, or_false] at hm
      obtain ⟨room, ⟨rfl | rfl, -⟩, rfl⟩ := hm <;> exact hk (by decide)
    · cases hm

theorem find?_builtClass {w : World} {name key : String} {base : ClassRef}
    {attributes : List (String × Attribute)} (hk : key ∉ ClassPlan.standing) :
    Table.find? (builtClass w name base attributes).attributes key =
      (Table.find? (Table.ofRows attributes) key).map fun a => (ClassPlan.settle (key, a)).2 := by
  rw [← plannedClass_plain]
  exact find?_plannedClass hk List.not_mem_nil

theorem find?_builtClass_told {w : World} {name key : String} {base : ClassRef}
    {attributes : List (String × Attribute)} (hk : key ∈ ["__module__", "__doc__"]) {a : Attribute}
    (ha : Table.find? (Table.ofRows attributes) key = some a) :
    Table.find? (builtClass w name base attributes).attributes key = some a := by
  have hne : "__qualname__" ≠ key := by
    rintro rfl
    exact absurd hk (by decide)
  have rooms : key ∉ Table.keys (roomsBelow w base (Table.ofRows attributes)) := by
    intro hm
    obtain ⟨row, hrow, rfl⟩ := List.mem_map.mp hm
    unfold roomsBelow at hrow
    split at hrow
    · simp only [List.mem_map, List.mem_filter, ClassPlan.roomNames, List.mem_cons,
        List.not_mem_nil, or_false] at hrow
      obtain ⟨room, ⟨rfl | rfl, -⟩, rfl⟩ := hrow <;> exact absurd hk (by decide)
    · cases hrow
  exact ClassPlan.find?_complete_told hk rooms
    ((Table.nodup_keys_ofRows attributes).sublist (List.Sublist.map _ List.filter_sublist))
    ((Table.find?_erase _ _ _).trans ((if_neg hne).trans ha))

/-- What is settled under its name is a function of objects only if it was given as one. -/
theorem ClassPlan.settle_ofObject {row : String × Attribute} {f : Function}
    (h : (settle row).2 = .ofObject f) : row.2 = .ofObject f := by
  unfold settle at h
  split at h
  all_goals first
    | exact h
    | cases h

theorem ClassPlan.settle_fixed {row : String × Attribute} {x : Value}
    (h : (settle row).2 = .fixed x) : row.2 = .fixed x := by
  unfold settle at h
  split at h
  all_goals first
    | exact h
    | cases h

/-- A class that is made holds what it was given, and beside it values and rooms alone. -/
theorem of_find?_builtClass {w : World} {name key : String} {base : ClassRef}
    {attributes : List (String × Attribute)} {a : Attribute}
    (h : Table.find? (builtClass w name base attributes).attributes key = some a) :
    (∃ given, (key, given) ∈ attributes ∧ (ClassPlan.settle (key, given)).2 = a) ∨
      (∃ x, a = .value x) ∨ ∃ k of, a = .field k of := by
  have hrow := Table.mem_ofRows (Table.mem_of_find? h)
  unfold ClassPlan.complete at hrow
  simp only [List.mem_append] at hrow
  rcases hrow with (((hrow | hrow) | hrow) | hrow) | hrow
  · obtain ⟨⟨key', given⟩, hgiven, he⟩ := List.mem_map.mp hrow
    obtain rfl : key' = key := (ClassPlan.settle_key _).symm.trans (congrArg Prod.fst he)
    exact .inl ⟨given, Table.mem_ofRows (List.mem_of_mem_filter hgiven), congrArg Prod.snd he⟩
  · split at hrow
    · cases hrow
    · cases List.mem_singleton.mp hrow
      exact .inr (.inl ⟨_, rfl⟩)
  · unfold roomsBelow at hrow
    split at hrow
    · obtain ⟨room, -, he⟩ := List.mem_map.mp hrow
      cases he
      exact .inr (.inr ⟨_, _, rfl⟩)
    · cases hrow
  · split at hrow
    · cases hrow
    · cases List.mem_singleton.mp hrow
      exact .inr (.inl ⟨_, rfl⟩)
  · split at hrow
    · cases List.mem_singleton.mp hrow
      exact .inr (.inl ⟨_, rfl⟩)
    · cases hrow

namespace Machine

variable {w v : World} {name : String} {base : ClassRef} {attributes : List (String × Attribute)}
  {n : Nat}

theorem ClassPlan.hosted_slotNames (x : Value) : Hosted (ClassPlan.slotNames x) := by
  have items : Hosted x.items := by
    unfold Value.items
    split <;> exact fun _ _ _ h => by cases h
  have named (s : String) :
      Hosted (if Text.isName s.toList then .ok s else .error .mismatch : Except Fault String) := by
    split
    · exact .ok _
    · exact .fault (by simp)
  unfold ClassPlan.slotNames
  split
  · refine Hosted.mapM (fun y => ?_) _
    split
    · exact named _
    · exact .fault (by simp)
  · refine items.bind fun _ => Hosted.mapM (fun y => ?_) _
    split
    · exact named _
    · exact .fault (by simp)

theorem ClassPlan.hosted_checkSlot (attributes : List (String × Attribute)) (slot : String) :
    Hosted (ClassPlan.checkSlot attributes slot) := by
  unfold ClassPlan.checkSlot
  split
  · exact .fault (by simp)
  · exact .ok _

theorem of_readSlots {opens : Bool} {slots : List String × Bool}
    (hs : ∀ x, Table.find? attributes "__slots__" ≠ some (.value x))
    (h : (ClassPlan.readSlots name opens attributes).exec w = (.ok slots, v)) :
    slots = ([], !opens) ∧ v = w := by
  unfold ClassPlan.readSlots at h
  split at h
  · cases h
    exact ⟨rfl, rfl⟩
  · exact absurd ‹_› (hs _)
  · cases h

theorem exec_readSlots (opens : Bool) :
    ∃ r, (ClassPlan.readSlots name opens attributes).exec w = (r, w) ∧ Hosted r := by
  unfold ClassPlan.readSlots
  split
  · exact ⟨_, rfl, .ok _⟩
  · rename_i value _
    rw [Run.exec_bind, Run.exec_look]
    dsimp only
    rw [Run.exec_bind, Run.exec_lift]
    cases hn : ClassPlan.slotNames (w.followed value) with
    | error f => exact ⟨_, rfl, (ClassPlan.hosted_slotNames _).of_eq hn⟩
    | ok names =>
      dsimp only
      split
      · exact ⟨_, rfl, .fault (by simp)⟩
      · have checked (slots : List String) : ∃ r, Run.exec (slots.forM fun slot =>
            Run.lift (ClassPlan.checkSlot attributes slot)) w = (r, w) ∧ Hosted r := by
          induction slots with
          | nil => exact ⟨_, rfl, .ok _⟩
          | cons slot slots ih =>
            show ∃ r, Run.exec (do
              Run.lift (ClassPlan.checkSlot attributes slot)
              slots.forM fun slot => Run.lift (ClassPlan.checkSlot attributes slot)) w = (r, w) ∧
                Hosted r
            rw [Run.exec_bind, Run.exec_lift]
            cases hc : ClassPlan.checkSlot attributes slot with
            | error f => exact ⟨_, rfl, (ClassPlan.hosted_checkSlot _ _).of_eq hc⟩
            | ok a => exact ih
        obtain ⟨r, hr, hosted⟩ := checked _
        rw [Run.exec_bind, hr]
        cases r with
        | error f => exact ⟨_, rfl, hosted.error⟩
        | ok _ => exact ⟨_, rfl, .ok _⟩
  · exact ⟨_, rfl, .fault (by simp)⟩

/-- The slots that are named are put under names of the class; where the class above gives open room,
no more is given. -/
theorem readSlots_named {opens : Bool} {x : Value}
    (hx : Table.find? attributes "__slots__" = some (.value x)) {plan : List String × Bool}
    (h : (ClassPlan.readSlots name opens attributes).exec w = (.ok plan, w)) :
    ∃ names, ClassPlan.slotNames (w.followed x) = .ok names ∧
      (∀ slot ∈ plan.1, ∃ given ∈ names, slot = ClassPlan.privateName name given) ∧
      (opens = true → plan.2 = false) := by
  unfold ClassPlan.readSlots at h
  rw [hx] at h
  dsimp only at h
  rw [Run.exec_bind, Run.exec_look] at h
  dsimp only at h
  rw [Run.exec_bind, Run.exec_lift] at h
  cases hn : ClassPlan.slotNames (w.followed x) with
  | error f => rw [hn] at h; cases h
  | ok names =>
    rw [hn] at h
    dsimp only at h
    split at h
    · cases h
    · rename_i hrooms
      obtain ⟨_, _, -, h⟩ := Run.of_exec_bind h
      cases h
      refine ⟨names, rfl, ?_, ?_⟩
      · intro slot hs
        rw [List.mem_mergeSort, List.mem_eraseDups] at hs
        obtain ⟨given, hgiven, rfl⟩ := List.mem_map.mp hs
        exact ⟨given, List.mem_of_mem_filter hgiven, rfl⟩
      · rintro rfl
        have hnone : names.filter ClassPlan.roomNames.contains = [] := by
          simpa using (not_or.mp (mt Bool.or_eq_true_iff.mpr hrooms)).2
        show (names.filter ClassPlan.roomNames.contains).contains "__dict__" = false
        rw [hnone]
        rfl

theorem of_qualifiedName {qualified : String}
    (hq : ∀ x, Table.find? attributes "__qualname__" ≠ some (.value x))
    (h : qualifiedName name attributes = .ok qualified) : qualified = name := by
  unfold qualifiedName at h
  split at h
  · cases h
    rfl
  · exact absurd ‹_› (hq _)
  · cases h

/-- What is left to do once a class is there: the class above is told of it. -/
def tellAbove (m : Machine) (n : Nat) : Run Nat := do
  let w ← Run.world
  match (w.above (.made n)).findSome? fun holder =>
    (w.own? holder "__init_subclass__").map (holder, ·) with
  | some (.made holder, a) =>
    let _ ← m.use (w.reached (.made holder) (.made n) none a) [] []
    return n
  | _ => return n

/-- A class is made as its slots and its name say, and the class above is told of it; or it cannot be
made, and nothing has changed. -/
theorem exec_buildClass (m : Machine) (name : String) (base : ClassRef)
    (attributes : List (String × Attribute)) (w : World) :
    (∃ f, (m.buildClass name base attributes).exec w = (.error f, w) ∧
      Hosted (.error f : Except Fault Nat)) ∨
      ∃ plan qualified,
        (ClassPlan.readSlots name (w.isOpen base) (Table.ofRows attributes)).exec w =
          (.ok plan, w) ∧
        qualifiedName name (Table.ofRows attributes) = .ok qualified ∧
        (m.buildClass name base attributes).exec w = (m.tellAbove w.classes.length).exec
          (w.withClass (plannedClass w name qualified base attributes plan)) := by
  obtain ⟨r, hread, hosted⟩ : ∃ r, (ClassPlan.readSlots name (w.isOpen base)
      (Table.ofRows attributes)).exec w = (r, w) ∧ Hosted r := exec_readSlots _
  unfold buildClass
  rw [Run.exec_bind, Run.exec_world]
  dsimp only
  rw [Run.exec_bind, hread]
  cases r with
  | error f => exact .inl ⟨f, rfl, hosted.error⟩
  | ok plan =>
    dsimp only
    split
    · exact .inl ⟨_, rfl, .fault (by simp)⟩
    · rw [Run.exec_bind, Run.exec_lift]
      cases hq : qualifiedName name (Table.ofRows attributes) with
      | error f =>
        refine .inl ⟨f, rfl, ?_⟩
        unfold qualifiedName at hq
        split at hq
        all_goals cases hq
        exact .fault (by simp)
      | ok qualified =>
        dsimp only
        split
        · exact .inl ⟨_, rfl, .fault (by simp)⟩
        · exact .inr ⟨plan, qualified, rfl, rfl, rfl⟩

/-- A class without slots is made, and the class above is told of it; or nothing has changed. -/
theorem exec_buildPlain (m : Machine)
    (hs : ∀ x, Table.find? (Table.ofRows attributes) "__slots__" ≠ some (.value x))
    (hq : ∀ x, Table.find? (Table.ofRows attributes) "__qualname__" ≠ some (.value x)) :
    (∃ f, (m.buildClass name base attributes).exec w = (.error f, w) ∧
      Hosted (.error f : Except Fault Nat)) ∨
      (m.buildClass name base attributes).exec w = (m.tellAbove w.classes.length).exec
        (w.withClass (builtClass w name base attributes)) := by
  refine (exec_buildClass m name base attributes w).imp_right ?_
  rintro ⟨plan, qualified, hread, hqualified, hbuild⟩
  obtain ⟨rfl, -⟩ := of_readSlots hs hread
  obtain rfl := of_qualifiedName hq hqualified
  exact hbuild

/-- A class whose attributes say nothing of how it is made is made, unless its name cannot be one. -/
theorem exec_buildNamed (m : Machine)
    (h : ∀ key ∈ ["__slots__", "__qualname__", "__classcell__"],
      Table.find? (Table.ofRows attributes) key = none) :
    (m.buildClass name base attributes).exec w =
      if name.toList.contains '\x00' then (.error .nulInClassName, w)
      else (m.tellAbove w.classes.length).exec (w.withClass (builtClass w name base attributes)) := by
  simp only [List.forall_mem_cons] at h
  obtain ⟨hslots, hqualified, hcell, -⟩ := h
  unfold buildClass
  rw [Run.exec_bind, Run.exec_world]
  dsimp only
  rw [Run.exec_bind, show (ClassPlan.readSlots name (w.isOpen base) (Table.ofRows attributes)).exec w =
    (.ok ([], !w.isOpen base), w) by unfold ClassPlan.readSlots; rw [hslots]; rfl]
  dsimp only
  split
  · rfl
  · rw [Run.exec_bind, Run.exec_lift, show qualifiedName name (Table.ofRows attributes) = .ok name by
      unfold qualifiedName; rw [hqualified]]
    dsimp only
    rw [hcell]
    rfl

/-! ## Methods of classes -/

/-- A name under which neither classes nor their objects have anything that is built in. -/
def Plain (name : String) : Prop :=
  Kind.object.attribute? name = none ∧ Kind.type.attribute? name = none

theorem exec_declareOn (hp : Plain name) (x : Value) :
    (declare (.made n) name x).exec w = (.ok .null, w.setAttribute n name (.value x)) := by
  have hf : w.find? (w.classOf (World.classValue (.made n))) name = none :=
    World.find?_type w hp.1 hp.2
  have assigned : (plainAssign (World.classValue (.made n)) name x).exec w =
      (.ok (), w.setAttribute n name (.value x)) := by
    unfold plainAssign
    rw [Run.exec_bind, Run.exec_world]
    dsimp only
    rw [hf]
    rfl
  unfold declare
  rw [Run.exec_bind, assigned]
  rfl

theorem exec_reachMethod (m : Machine) (hp : Plain name) {c : ClassRef} {f : Function}
    (hf : ∃ k, w.find? c name = some (k, .ofClass f)) :
    (m.reach (World.classValue c) name).exec w =
      (.ok (.function f (some (World.classValue c))), w) := by
  obtain ⟨k, hf⟩ := hf
  rw [Link.reach_class hp.1 hp.2, hf]
  rfl

theorem exec_reachNone (m : Machine) (hp : Plain name) {c : ClassRef} (hf : w.find? c name = none) :
    (m.reach (World.classValue c) name).exec w =
      (.error (.noAttribute (.cls (w.className c)) name), w) := by
  rw [Link.reach_class hp.1 hp.2, hf]

def ofObjects : List HostMethod := [.execute, .callFunction]

theorem use_classMethod (k : Nat) {method : HostMethod} (hm : method ∉ ofObjects) (c : ClassRef)
    (args : List Value) (named : Named) :
    (nested (k + 1)).use (.function (.bundled (.host method)) (some (World.classValue c))) args named =
      (nested k).applyClassMethod method c args named := by
  cases method <;> first | rfl | exact absurd (by decide) hm

theorem exec_sendMethod (k : Nat) (hp : Plain name) {method : HostMethod} (hm : method ∉ ofObjects)
    {c : ClassRef} (hf : ∃ k, w.find? c name = some (k, .ofClass (.bundled (.host method))))
    (args : List Value) (named : Named) :
    ((nested (k + 1)).send (World.classValue c) name args named).exec w =
      ((nested k).applyClassMethod method c args named).exec w := by
  unfold send
  rw [Run.exec_bind, exec_reachMethod _ hp hf]
  dsimp only
  rw [use_classMethod k hm]

end Machine

end Toolwright
