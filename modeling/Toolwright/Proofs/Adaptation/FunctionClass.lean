import Toolwright.Proofs.Adaptation.Helpers
import Toolwright.Proofs.Adaptation.Parameters

/-!
# Classes of function-calling hosts

A definition that is adapted becomes a class below a class of a function-calling host. The class has
the name, the description and the parameters of the definition as they are at that moment, and the
helpers whose names the host leaves free.
-/

namespace Toolwright

set_option autoImplicit false

def World.Noted (w v : World) : Prop := ∃ log, v = { w with log }

/-- The methods of a function-calling host that work on a class. -/
def functionMethods : List (String × HostMethod) :=
  [("tool_name", .functionName), ("description", .description), ("param", .param),
    ("parameters", .parameters), ("to_json_schema", .functionSchema),
    ("to_openai_schema", .functionEntry)]

namespace World

variable {w v u : World} {n : Nat} {c : ClassRef} {name : String} {s : Shelf} {t : ParameterTable}
  {C own : Nat → Prop} {p : Draft} {D : Definition Stored}

theorem Noted.refl (w : World) : w.Noted w := ⟨w.log, rfl⟩

theorem Noted.later (h : w.Noted v) (own : Nat → Prop) : w.Later v own := by
  obtain ⟨log, rfl⟩ := h
  exact (Later.refl w own).log log

/-- A class finds the methods of its host. -/
structure HasMethods (w : World) (c : ClassRef) (methods : List (String × HostMethod)) : Prop where
  rooted : w.Rooted c
  finds : ∀ row ∈ methods,
    ∃ k, w.find? c row.1 = some (.made k, .ofClass (.bundled (.host row.2)))

theorem Later.hasMethods (hl : w.Later v own) {methods : List (String × HostMethod)}
    (h : w.HasMethods c methods) : v.HasMethods c methods where
  rooted := hl.rooted h.rooted
  finds row hr := by
    rw [hl.find? h.rooted]
    exact h.finds row hr

/-- A class below which classes of tools are made: the classes are told to copy the parameters. -/
structure FunctionBase (w : World) (b : ClassRef) (s : Shelf) (t : ParameterTable)
    (C : Nat → Prop) : Prop extends w.HasMethods b functionMethods where
  told : ∃ k, w.find? b "__init_subclass__" =
    some (.made k, .ofClass (.bundled (.host .copyParameters)))
  fields : ∀ name ∈ ["_name", "_description", "_parameters"], name ∈ w.attributeNames b
  parameters : ∃ k, w.find? b "_parameters" = some (.made k, .value (cellValue s.cell))
  shelf : w.Shelves s t C

theorem Later.attributeNames (hl : w.Later v own) (hc : w.Rooted c) :
    v.attributeNames c = w.attributeNames c := by
  have := congrArg List.flatten (hl.map_lineage hc
    (fun cls => (cls.map fun cls => Table.keys cls.attributes).getD []) fun _ => [])
  simp only [← List.flatMap_def] at this
  unfold World.attributeNames
  refine Eq.trans (List.flatMap_congr fun holder _ => ?_) (this.trans
    (List.flatMap_congr fun holder _ => ?_))
  all_goals cases holder <;> rfl

theorem Later.functionBase (hl : w.Later v own) (h : w.FunctionBase c s t C) (hd : w.HoldsData C)
    (ho : ∀ n ∈ s.cells, ¬ own n) (hC : ∀ n, C n → ¬ own n) : v.FunctionBase c s t C where
  toHasMethods := hl.hasMethods h.toHasMethods
  told := by
    rw [hl.find? h.rooted]
    exact h.told
  fields name hn := by
    rw [hl.attributeNames h.rooted]
    exact h.fields name hn
  parameters := by
    rw [hl.find? h.rooted]
    exact h.parameters
  shelf := hl.shelves h.shelf hd ho hC

theorem mem_attributeNames {k : Nat} {a : Attribute} (h : w.find? c name = some (.made k, a)) :
    name ∈ w.attributeNames c := by
  obtain ⟨holder, hm, ha⟩ := List.exists_of_findSome?_eq_some h
  obtain ⟨b, hb, he⟩ := Option.map_eq_some_iff.mp ha
  cases he
  unfold World.own? at hb
  obtain ⟨cls, hcls, hf⟩ := Option.bind_eq_some_iff.mp hb
  refine List.mem_flatMap.mpr ⟨.made k, hm, ?_⟩
  simp only [hcls, Option.map_some, Option.getD_some]
  by_contra hn
  rw [Table.find?_eq_none hn] at hf
  cases hf

theorem ClassAt.mem_attributeNames {n : Nat} {text key : String} {b : ClassRef}
    {own : String → Option Attribute} (h : w.ClassAt n text b own) (hk : key ∈ w.attributeNames b) :
    key ∈ w.attributeNames (.made n) := by
  obtain ⟨holder, hm, hk⟩ := List.mem_flatMap.mp hk
  refine List.mem_flatMap.mpr ⟨holder, ?_, hk⟩
  rw [h.lineage]
  exact List.mem_cons_of_mem _ hm

end World

/-! ## Helpers that are taken over -/

def Definition.free? (D : Definition Stored) (reserved : List String) (name : String) :
    Option Attribute :=
  if reserved.contains name then none else (D.helper? name).map helperAttribute

def Definition.freeRows (D : Definition Stored) (reserved : List String) :
    List (String × Attribute) :=
  (D.merged.filter fun h => !reserved.contains h.1).map fun h => (h.1, helperAttribute h.2)

theorem Definition.attributes_kept (D : Definition Stored) (reserved : List String) :
    ((D.merged.map keptHelper).filter fun h => !(h.name?.any reserved.contains)).filterMap
      Helper.attribute? = D.freeRows reserved := by
  unfold freeRows
  generalize D.merged = rows
  induction rows with
  | nil => rfl
  | cons row rows ih =>
    have hname : (keptHelper row).name?.any reserved.contains = reserved.contains row.1 := rfl
    have hattr : (keptHelper row).attribute? = some (row.1, helperAttribute row.2) := rfl
    rw [List.map_cons, List.filter_cons, List.filter_cons, hname]
    split
    · rw [List.filterMap_cons, hattr, ih]
      rfl
    · exact ih

theorem Definition.find?_freeRows {D : Definition Stored} (reserved : List String)
    (hi : (Table.keys D.instanceHelpers).Nodup) (hc : (Table.keys D.classHelpers).Nodup)
    (name : String) :
    Table.find? (Table.ofRows (D.freeRows reserved)) name = D.free? reserved name := by
  have hd : (Table.keys (D.freeRows reserved)).Nodup := by
    rw [freeRows, Table.keys, List.map_map]
    exact (nodup_merged hi).sublist (List.filter_sublist.map _)
  rw [Table.ofRows_of_nodup hd]
  unfold freeRows free?
  rw [Table.find?_mapValues (fun _ => helperAttribute),
    Table.find?_filter (fun key => !reserved.contains key), find?_merged hc]
  cases reserved.contains name <;> rfl

theorem Definition.of_mem_freeRows {D : Definition Stored} {reserved : List String}
    {row : String × Attribute} (h : row ∈ D.freeRows reserved) :
    reserved.contains row.1 = false ∧
      ((∃ s, (row.1, s) ∈ D.instanceHelpers ∧ row.2 = .ofObject (.forwards s.value)) ∨
        ∃ s, (row.1, s) ∈ D.classHelpers ∧ row.2 = .fixed s.value) := by
  obtain ⟨⟨name, scope, s⟩, hm, rfl⟩ := List.mem_map.mp h
  obtain ⟨hm, hr⟩ := List.mem_filter.mp hm
  refine ⟨(Bool.not_eq_true' _).mp hr, ?_⟩
  rcases Definition.of_mem_merged hm with ⟨rfl, hs⟩ | ⟨rfl, hs⟩
  · exact .inl ⟨s, hs, rfl⟩
  · exact .inr ⟨s, hs, rfl⟩

theorem Definition.covers_builtClass {D : Definition Stored} {w : World} {name : String}
    {base : ClassRef} {reserved : List String} {more : List (String × Attribute)}
    (hmore : ∀ row ∈ more, (∀ x, row.2 ≠ .ofObject (.forwards x)) ∧ ∀ x, row.2 ≠ .fixed x) :
    D.Covers reserved (Table.find? (builtClass w name base
      (Machine.withAttributes (D.freeRows reserved) more)).attributes) := by
  have written {row : String × Attribute}
      (hrow : row ∈ Machine.withAttributes (D.freeRows reserved) more) :
      row ∈ D.freeRows reserved ∨ row ∈ more := List.mem_append.mp (Table.mem_ofRows hrow)
  constructor
  · intro key x h
    rcases of_find?_builtClass h with ⟨given, hrow, ha⟩ | ⟨y, hy⟩ | ⟨k, of, hk⟩
    · obtain rfl : given = .ofObject (.forwards x) := ClassPlan.settle_ofObject ha
      rcases written hrow with hr | hr
      · obtain ⟨hfree, ⟨s, hs, hv⟩ | ⟨s, hs, hv⟩⟩ := of_mem_freeRows hr
        · cases hv
          exact ⟨hfree, s, hs, rfl⟩
        · cases hv
      · exact absurd rfl ((hmore _ hr).1 x)
    · cases hy
    · cases hk
  · intro key x h
    rcases of_find?_builtClass h with ⟨given, hrow, ha⟩ | ⟨y, hy⟩ | ⟨k, of, hk⟩
    · obtain rfl : given = .fixed x := ClassPlan.settle_fixed ha
      rcases written hrow with hr | hr
      · obtain ⟨hfree, ⟨s, hs, hv⟩ | ⟨s, hs, hv⟩⟩ := of_mem_freeRows hr
        · cases hv
        · cases hv
          exact ⟨hfree, s, hs, rfl⟩
      · exact absurd rfl ((hmore _ hr).2 x)
    · cases hy
    · cases hk

namespace Machine

variable {w v : World} {p : Draft} {D : Definition Stored} {C : Nat → Prop}

theorem of_note {logger : String} {level : Int} {message : Run String} {r : Except Fault String}
    (hm : message.exec w = (r, w)) {x : Except Fault Unit}
    (h : (Run.note logger level message).exec w = (x, v)) : w.Noted v := by
  rcases exec_noteMessage logger level hm with ⟨f, hf⟩ | ⟨log, hlog, -⟩
  · rw [hf] at h
    cases h
    exact World.Noted.refl w
  · rw [hlog] at h
    cases h
    exact ⟨log, rfl⟩

theorem hosted_note {logger : String} {level : Int} {message : Run String} {r : Except Fault String}
    (hm : message.exec w = (r, w)) (hr : Hosted r) :
    Hosted ((Run.note logger level message).exec w).1 := by
  rw [exec_noteWorded logger level hm]
  split
  · exact hr.map
  · exact .ok _

/-- The warning that a helper of a tool is not installed. -/
def collisionWarning (tool name : String) : Record :=
  ⟨adaptersLogger, 30, "Tool " ++ tool ++ ": helper " ++ Text.quoted name ++
    " collides with the host API and is not installed"⟩

/-- The warnings of the reserved names that are given to helpers, as far as warnings are kept. Where the
name of the tool cannot be printed the first one cannot be worded. -/
def collisionWarnings (w : World) (tool : Value) (names : List String) :
    Except Fault (List Record) :=
  if names = [] ∨ ¬ w.logFrom ≤ 30 then .ok []
  else (w.printedOf tool).map fun text => names.map (collisionWarning text)

/-- The helpers of a definition with names that are not reserved, as the definition keeps them. -/
def freeKept (D : Definition Stored) (reserved : List String) : List Helper :=
  (D.merged.map keptHelper).filter fun h => !(h.name?.any reserved.contains)

def warnCollision (m : Machine) (definition : Value) (name : String) : Run Unit := do
  let tool ← m.ask definition "name"
  Run.note adaptersLogger 30 (do
    return "Tool " ++ (← m.printed tool) ++ ": helper " ++ Text.quoted name ++
      " collides with the host API and is not installed")

theorem exec_warnCollision {m : Machine} (h : w.Declares p D C) (name : String) :
    (m.warnCollision p.value name).exec w =
      if w.logFrom ≤ 30 then
        ((w.printedOf D.name).map fun _ => (), { w with log := w.log ++
          ((w.printedOf D.name).toOption.toList.map (collisionWarning · name)) })
      else (.ok (), w) := by
  have worded : Run.exec (do
      return "Tool " ++ (← m.printed D.name) ++ ": helper " ++ Text.quoted name ++
        " collides with the host API and is not installed") w =
      ((w.printedOf D.name).map fun tool => (collisionWarning tool name).message, w) := by
    rw [Run.exec_bind, exec_printed m h.data (h.values _ List.mem_cons_self).1]
    cases w.printedOf D.name <;> rfl
  unfold warnCollision
  rw [Run.exec_bind, exec_askName m h.toDrafts h.bundled]
  dsimp only
  rw [exec_noteWorded _ _ worded]
  cases w.printedOf D.name <;> rfl

theorem exec_warnCollisions {m : Machine} (h : w.Declares p D C) (names : List String) :
    (names.forM (m.warnCollision p.value)).exec w =
      match collisionWarnings w D.name names with
      | .ok warnings => (.ok (), { w with log := w.log ++ warnings })
      | .error f => (.error f, w) := by
  induction names generalizing w with
  | nil =>
    rw [show collisionWarnings w D.name [] = .ok [] from if_pos (.inl rfl)]
    dsimp only
    rw [List.append_nil]
    rfl
  | cons name names ih =>
    rw [show (name :: names).forM (m.warnCollision p.value) = (do
      m.warnCollision p.value name
      names.forM (m.warnCollision p.value)) from rfl, Run.exec_bind, exec_warnCollision h]
    by_cases hlevel : w.logFrom ≤ 30
    · rw [if_pos hlevel, show collisionWarnings w D.name (name :: names) =
        (w.printedOf D.name).map _ from if_neg (by simp [hlevel])]
      cases ht : w.printedOf D.name with
      | error f =>
        dsimp only [Except.map, Except.toOption, Option.toList, List.map]
        rw [List.append_nil]
      | ok tool =>
        let u : World := { w with log := w.log ++ [collisionWarning tool name] }
        have others : collisionWarnings u D.name names = .ok (names.map (collisionWarning tool)) := by
          unfold collisionWarnings
          rw [show u.printedOf D.name = .ok tool from ht]
          cases names with
          | nil => rfl
          | cons name names => exact if_neg (by simpa using hlevel)
        have rest := ih (h.unchanged ((World.Later.refl w _).log u.log)).declares
        rw [others] at rest
        refine rest.trans ?_
        dsimp only [Except.map]
        rw [List.map_cons, List.append_assoc]
        rfl
    · rw [if_neg hlevel]
      dsimp only
      rw [ih h, show collisionWarnings w D.name names = .ok [] from if_pos (.inr hlevel),
        show collisionWarnings w D.name (name :: names) = .ok [] from if_pos (.inr hlevel)]

theorem exec_freeHelpers {m : Machine} (h : w.Declares p D C) (reserved : List String) :
    (m.freeHelpers p.value reserved).exec w =
      match collisionWarnings w D.name (collisions (Table.keys D.merged) reserved) with
      | .ok warnings => (.ok (freeKept D reserved), { w with log := w.log ++ warnings })
      | .error f => (.error f, w) := by
  have hnames : (D.merged.map keptHelper).filterMap Helper.name? = Table.keys D.merged := by
    unfold Table.keys
    rw [List.filterMap_map]
    exact congrFun List.filterMap_eq_map D.merged
  show Run.exec (do
    let helpers ← m.helpersOf p.value
    (collisions (helpers.filterMap Helper.name?) reserved).forM (m.warnCollision p.value)
    return helpers.filter fun h => !(h.name?.any reserved.contains)) w = _
  rw [Run.exec_bind, exec_helpersOf m h.toDrafts h.bundled]
  dsimp only
  rw [hnames, Run.exec_bind, exec_warnCollisions h]
  cases collisionWarnings w D.name (collisions (Table.keys D.merged) reserved) <;> rfl

theorem of_freeHelpers {m : Machine} (h : w.Declares p D C) {reserved : List String}
    {x : Except Fault (List Helper)} (hr : (m.freeHelpers p.value reserved).exec w = (x, v)) :
    w.Noted v ∧ Hosted x ∧
      ∀ helpers, x = .ok helpers → helpers.filterMap Helper.attribute? = D.freeRows reserved := by
  rw [exec_freeHelpers h] at hr
  cases hw : collisionWarnings w D.name (collisions (Table.keys D.merged) reserved) with
  | error f =>
    rw [hw] at hr
    cases hr
    refine ⟨World.Noted.refl w, ?_, fun _ h => by cases h⟩
    unfold collisionWarnings at hw
    split at hw
    · cases hw
    · exact (w.hosted_printedOf D.name).map.of_eq hw
  | ok warnings =>
    rw [hw] at hr
    cases hr
    refine ⟨⟨_, rfl⟩, .ok _, fun helpers he => ?_⟩
    cases he
    exact D.attributes_kept reserved

theorem warnings_collisions {tool : Value} {names : List String} {warned : List Record}
    (h : collisionWarnings w tool names = .ok warned) : warnings warned = warned := by
  unfold collisionWarnings at h
  split at h
  · cases h
    rfl
  · cases ht : w.printedOf tool with
    | error f =>
      rw [ht] at h
      cases h
    | ok text =>
      rw [ht] at h
      cases h
      refine List.filter_eq_self.mpr fun record hr => ?_
      obtain ⟨name, -, rfl⟩ := List.mem_map.mp hr
      rfl

theorem warned_freeHelpers {m : Machine} (h : w.Declares p D C) {reserved : List String}
    {helpers : List Helper} (hr : (m.freeHelpers p.value reserved).exec w = (.ok helpers, v)) :
    ∃ warned, collisionWarnings w D.name (collisions (Table.keys D.merged) reserved) = .ok warned ∧
      v = { w with log := w.log ++ warned } := by
  rw [exec_freeHelpers h] at hr
  cases hw : collisionWarnings w D.name (collisions (Table.keys D.merged) reserved) with
  | error f =>
    rw [hw] at hr
    cases hr
  | ok warned =>
    rw [hw] at hr
    cases hr
    exact ⟨warned, rfl, rfl⟩

end Machine

end Toolwright
