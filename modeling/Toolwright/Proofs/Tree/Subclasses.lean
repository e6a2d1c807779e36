import Toolwright.Proofs.Tree.Ledger
/-!
# Classes below classes of hosts
A class that is made below a class of a host, and that leaves the names of the host alone, is a class
of that host. It starts with the parameters of the class above it, or with no schema, and with nothing
else that was declared.
-/

namespace Toolwright

set_option autoImplicit false

/-! ## Names that a class leaves alone -/

/-- What a class of a function-calling host needs to find above itself. -/
def functionNames : List String :=
  ["_name", "_description", "_parameters", "__init_subclass__"] ++ Table.keys functionMethods

/-- What a class of a serving host needs to find above itself. -/
def servingNames : List String :=
  ["_name", "_description", "_input_schema", "__init_subclass__"] ++ Table.keys servingMethods

/-- Attributes that are written have none of some names, and neither have the slots among them. -/
structure Spares (attributes : Literal.Rows) (names : List String) : Prop where
  keys : ∀ key ∈ names, key ∉ Table.keys attributes
  slots : ∀ w v named x given, (Run.literalRows attributes).exec w = (.ok named, v) →
    Table.find? named "__slots__" = some x → ClassPlan.slotNames (v.followed x) = .ok given →
    ∀ key ∈ names, key ∉ given

namespace ClassPlan

def Unmangled (key : String) : Prop :=
  key.toList.head? ≠ some '_' ∨ key.toList[1]? = some '_' ∨ ¬ ['_', '_'] <:+: key.toList

instance (key : String) : Decidable (Unmangled key) := inferInstanceAs (Decidable (_ ∨ _ ∨ _))

theorem privateName_eq {cls slot key : String} (hk : Unmangled key)
    (h : privateName cls slot = key) : slot = key := by
  unfold privateName at h
  dsimp only at h
  split at h
  · rename_i hc
    simp only [Bool.and_eq_true, Bool.not_eq_true'] at hc
    obtain ⟨⟨hs, -⟩, howner⟩ := hc
    have hkey : key.toList = '_' :: (cls.toList.dropWhile (· == '_') ++ slot.toList) := by
      rw [← h]
      simp
    rcases hk with hk | hk | hk
    · rw [hkey] at hk
      exact absurd rfl hk
    · -- the name of the class starts with no underscore once those in front are left out
      cases hd : cls.toList.dropWhile (· == '_') with
      | nil =>
        rw [hd] at howner
        cases howner
      | cons c rest =>
        have := List.head_dropWhile_not (· == '_') (l := cls.toList) (by rw [hd]; simp)
        rw [hkey, hd] at hk
        simp [hd] at this hk
        exact absurd hk this
    · refine absurd ?_ hk
      rw [hkey]
      have := (String.startsWith_string_iff.mp hs).isInfix
      exact (this.trans (List.suffix_append _ _).isInfix).trans (List.suffix_cons _ _).isInfix
  · exact h

end ClassPlan

def plainNames : List String := ["tool_name", "description", "__init_subclass__"]

theorem functionNames_plain :
    ∀ key ∈ functionNames, key ∉ ClassPlan.standing ∧ ClassPlan.Unmangled key := by
  decide +kernel

theorem servingNames_plain :
    ∀ key ∈ servingNames, key ∉ ClassPlan.standing ∧ ClassPlan.Unmangled key := by
  decide +kernel

theorem plainNames_plain :
    ∀ key ∈ plainNames, key ∉ ClassPlan.standing ∧ ClassPlan.Unmangled key := by
  decide +kernel

namespace Machine

variable {w v : World} {base : ClassRef} {attributes : List (String × Attribute)}

/-- A class that has none of some names, neither as attributes nor as slots, is made as a class without
them, and the class above is told of it; or nothing has changed. -/
theorem exec_buildSparing (m : Machine) (name : String) (base : ClassRef) {names : List String}
    (hplain : ∀ key ∈ names, key ∉ ClassPlan.standing ∧ ClassPlan.Unmangled key)
    (hnone : ∀ key ∈ names, Table.find? (Table.ofRows attributes) key = none)
    (hslots : ∀ x given, Table.find? (Table.ofRows attributes) "__slots__" = some (.value x) →
      ClassPlan.slotNames (w.followed x) = .ok given → ∀ key ∈ names, key ∉ given) :
    (∃ f, (m.buildClass name base attributes).exec w = (.error f, w)) ∨
      ∃ cls : HostClass, (m.buildClass name base attributes).exec w =
          (m.tellAbove w.classes.length).exec (w.withClass cls) ∧
        cls.name = name ∧ cls.lineage = w.lineage base ∧
        (w.isOpen base = true → cls.isOpen = !w.isOpen base) ∧
        ∀ key ∈ names, Table.find? cls.attributes key = none := by
  rcases exec_buildClass m name base attributes w with ⟨f, hf, -⟩ | ⟨plan, qualified, hplan, -, hbuild⟩
  · exact .inl ⟨f, hf⟩
  refine .inr ⟨_, hbuild, rfl, rfl, ?_⟩
  have hread : (w.isOpen base = true → plan.2 = (!w.isOpen base)) ∧ ∀ key ∈ names, key ∉ plan.1 := by
    by_cases hs : ∃ x, Table.find? (Table.ofRows attributes) "__slots__" = some (.value x)
    · obtain ⟨x, hx⟩ := hs
      obtain ⟨given, hgiven, hin, hopen⟩ := readSlots_named hx hplan
      refine ⟨fun ho => by rw [ho, hopen ho]; rfl, fun key hk hm => ?_⟩
      obtain ⟨slot, hslot, he⟩ := hin key hm
      have := ClassPlan.privateName_eq (hplain key hk).2 he.symm
      exact hslots x given hx hgiven key hk (this ▸ hslot)
    · obtain ⟨rfl, -⟩ := of_readSlots (fun x hx => hs ⟨x, hx⟩) hplan
      exact ⟨fun _ => rfl, fun _ _ => List.not_mem_nil⟩
  refine ⟨hread.1, fun key hk => ?_⟩
  rw [find?_plannedClass (hplain key hk).1 (hread.2 key hk), hnone key hk]
  rfl

end Machine

namespace World

variable {w v : World} {n : Nat} {name : String} {base : ClassRef} {own : String → Option Attribute}
  {C : Nat → Prop} {s s' : Shelf} {t : ParameterTable} {card : FunctionCard} {served : ServingCard}

theorem ClassAt.functionClass (h : w.ClassAt n name base own) (hb : w.FunctionBase base s t C)
    (hline : Session.functionClassRef ∈ w.lineage base ∧ Session.servingClassRef ∉ w.lineage base)
    (hn : n ≠ 1) (hm : ∀ row ∈ functionMethods, own row.1 = none)
    (ht : own "__init_subclass__" = none) (hname : Describes (own "_name") card.name)
    (hdescription : Describes (own "_description") card.description)
    (hdata : card.name.Within (w.data C) ∧ card.description.Within (w.data C))
    (hp : ∃ k, w.find? (.made n) "_parameters" = some (.made k, .value (cellValue s'.cell)))
    (hs : w.Shelves s' card.parameters C) : w.FunctionClass n card s' C := by
  have methods := h.hasMethods hb.toHasMethods hm
  obtain ⟨k, hk⟩ := methods.finds ("tool_name", .functionName) (by decide)
  exact {
    tellsName := ⟨k, .functionName, by decide, hk⟩
    tellsDescription := methods.finds ("description", .description) (by decide)
    ownName := by
      rw [h.own?]
      exact hname
    ownDescription := by
      rw [h.own?]
      exact hdescription
    data := hdata
    methods := methods
    parameters := hp
    shelf := hs
    told := by
      rw [h.find?_above ht]
      exact hb.told
    fields := fun key hk => h.mem_attributeNames (hb.fields key (by
      simp only [List.mem_cons, List.not_mem_nil, or_false] at hk ⊢
      rcases hk with rfl | rfl <;> simp))
    opens := h.opens
    line := by
      rw [h.lineage]
      refine ⟨List.mem_cons_of_mem _ hline.1, fun hm => ?_⟩
      rcases List.mem_cons.mp hm with he | hm
      · cases he
        exact hn rfl
      · exact hline.2 hm }

theorem ClassAt.servingClass (h : w.ClassAt n name base own) (hb : w.ServingBase base)
    (hf : ∀ name ∈ ["_name", "_description", "_input_schema"], name ∈ w.attributeNames base)
    (hline : Session.servingClassRef ∈ w.lineage base ∧ Session.functionClassRef ∉ w.lineage base)
    (hn : n ≠ 0) (hm : ∀ row ∈ servingMethods, own row.1 = none)
    (ht : own "__init_subclass__" = none) (hname : Describes (own "_name") served.name)
    (hdescription : Describes (own "_description") served.description)
    (hdata : served.name.Within (w.data C) ∧ served.description.Within (w.data C))
    (hs : w.Schemed C (own "_input_schema") served.schema) {cell : Option Nat}
    (hc : ∀ k, w.HasSchemaCell n k → cell = some k) (hlt : ∀ k, cell = some k → k < w.cells.length) :
    w.ServingClass n served cell C := by
  have methods := h.hasMethods hb.toHasMethods hm
  obtain ⟨k, hk⟩ := methods.finds ("tool_name", .servedName) (by decide)
  exact {
    tellsName := ⟨k, .servedName, by decide, hk⟩
    tellsDescription := methods.finds ("description", .description) (by decide)
    ownName := by
      rw [h.own?]
      exact hname
    ownDescription := by
      rw [h.own?]
      exact hdescription
    data := hdata
    methods := methods
    schema := by
      rw [h.own?]
      exact hs
    untold := by
      rw [h.find?_above ht]
      exact hb.untold
    fields := fun key hk => h.mem_attributeNames (hf key hk)
    opens := h.opens
    line := by
      rw [h.lineage]
      refine ⟨List.mem_cons_of_mem _ hline.1, fun hm => ?_⟩
      rcases List.mem_cons.mp hm with he | hm
      · cases he
        exact hn rfl
      · exact hline.2 hm
    schemaCell := hc
    cell_lt := hlt }

theorem lineage_withClass {cls : HostClass} (hl : cls.lineage = w.lineage base) :
    (w.withClass cls).lineage (.made w.classes.length) = .made w.classes.length :: w.lineage base := by
  rw [← hl]
  simp [lineage, above, withClass]

theorem find?_withClass {cls : HostClass} (hb : w.Rooted base) (hl : cls.lineage = w.lineage base)
    (key : String) : (w.withClass cls).find? (.made w.classes.length) key =
      ((Table.find? cls.attributes key).map (ClassRef.made w.classes.length, ·)).or
        (w.find? base key) := by
  have hown : (w.withClass cls).own? (.made w.classes.length) key =
      Table.find? cls.attributes key := by
    simp [own?, withClass]
  rw [← (w.later_withClass cls).find? hb]
  unfold World.find?
  rw [lineage_withClass hl, List.findSome?_cons, hown, (w.later_withClass cls).lineage hb]
  cases Table.find? cls.attributes key <;> rfl

theorem PlainBase.withClass (h : w.PlainBase base) (hn : 1 < w.classes.length) {cls : HostClass}
    (hl : cls.lineage = w.lineage base)
    (hnone : ∀ key ∈ plainNames, Table.find? cls.attributes key = none) :
    (w.withClass cls).PlainClass w.classes.length where
  rooted k hk := by
    rw [lineage_withClass hl] at hk
    rcases List.mem_cons.mp hk with he | hk
    · cases he
      exact ⟨cls, by simp [World.withClass]⟩
    · exact (w.later_withClass cls).rooted h.rooted k
        (((w.later_withClass cls).lineage h.rooted).symm ▸ hk)
  lacks key hk := by
    have plain : ∀ key ∈ ["tool_name", "description"], key ∈ plainNames := by decide
    rw [find?_withClass h.rooted hl, hnone key (plain key hk), h.lacks key hk]
    rfl
  untold k a := by
    rw [find?_withClass h.rooted hl, hnone _ (by decide)]
    exact h.untold k a
  line := by
    have apart {k : Nat} (hk : k ≤ 1) : ClassRef.made k ≠ .made w.classes.length := by
      rintro ⟨⟩
      omega
    rw [lineage_withClass hl, List.mem_cons, List.mem_cons, not_or, not_or]
    exact ⟨⟨apart (Nat.zero_le 1), h.line.1⟩, apart (Nat.le_refl 1), h.line.2⟩

theorem followed_data {x : Value} (hx : x.Within (w.data C)) (hc : v.cells = w.cells) :
    v.followed x = w.followed x := by
  cases x with
  | opaqueRef o =>
    cases o with
    | place p =>
      cases p with
      | cell n => simp only [followed, contents, World.cell, hc]
      | «attributes» => exact hx.elim
      | shown => exact hx.elim
    | _ => rfl
  | _ => rfl

theorem Bundled.classes_lt (hb : w.Bundled) : 8 < w.classes.length := by
  have h : w.classes[8]? = Session.start.classes[8]? := hb.classes 8 (by decide) (by decide)
  by_contra hle
  rw [List.getElem?_eq_none (Nat.le_of_not_lt hle)] at h
  cases h

theorem Bundled.rooted (hb : w.Bundled) (hn : 2 ≤ n) (hn' : n < 9) : w.Rooted (.made n) := by
  have lineage : w.lineage (.made n) = Session.start.lineage (.made n) := by
    simp only [lineage, above, hb.classes n hn hn']
  intro k hk
  rw [lineage] at hk
  have all : ∀ n < 9, Session.start.lineage (.made n) = [.made n, .builtIn .object] := by decide
  rw [all n hn'] at hk
  obtain rfl : k = n := by simpa using hk
  rw [hb.classes k hn hn']
  exact Session.rooted_start hn' k List.mem_cons_self

end World

namespace Machine

variable {w v : World} {name id : String} {base : ClassRef} {C : Nat → Prop}
  {attributes : Literal.Rows} {names : List String}

theorem find?_writtenClass {named answers methods : List (String × Attribute)} {key : String}
    (ha : key ∉ Table.keys answers) (hm : key ∉ Table.keys methods) :
    Table.find? (Table.ofRows (named ++ answers ++ methods)) key =
      Table.find? (Table.ofRows named) key := by
  rw [Table.find?_ofRows_append, Table.find?_ofRows_append, Table.find?_ofRows_of_not_mem hm,
    Table.find?_ofRows_of_not_mem ha]
  rfl

def MakesSparing (m : Machine) (w : World) (C : Nat → Prop) (names : List String) (id : String)
    (base : ClassRef) (name : String) (x : Except Fault Unit) (v : World) : Prop :=
  ∃ u, w.Gains C u ∧ ((∃ f, x = .error f ∧ v = u) ∨
    ∃ given, (∀ key ∈ names, Table.find? (Table.ofRows given) key = none) ∧
      (∀ x slots, Table.find? (Table.ofRows given) "__slots__" = some (.value x) →
        ClassPlan.slotNames (u.followed x) = .ok slots → ∀ key ∈ names, key ∉ slots) ∧
      Run.exec (do
        let n ← m.buildClass name base given
        Run.bindClass id (.made n)) u = (x, v))

/-- A class that is written with attributes that spare some names is made without them, if it can be
made. Before that only data and an answer class are made. -/
theorem subclass_cases (m : Machine) (hb : w.Bundled) (hd : w.HoldsData C)
    (hs : Spares attributes names) (hne : ∀ key ∈ names, key ≠ "Response" ∧ key ≠ "execute")
    {response : Option String} {execute : Option Block} {x : Except Fault Unit}
    (hr : (m.subclass id base name attributes response execute).exec w = (x, v)) :
    m.MakesSparing w C names id base name x v := by
  unfold subclass at hr
  rcases Run.exec_bind_cases hr with ⟨f, rfl, hrows⟩ | ⟨named, u, hrows, hr⟩
  · have hg := hd.gains (Q := Link.RenamedNamed) fun L e => Link.literalRows_agree attributes
    rw [hrows] at hg
    exact ⟨v, hg, .inl ⟨f, rfl, rfl⟩⟩
  have hg : w.Gains C u := by
    have := hd.gains (Q := Link.RenamedNamed) fun L e => Link.literalRows_agree attributes
    rwa [hrows] at this
  obtain ⟨hdata, hkeys⟩ := hd.literalRows hrows
  have hvalue (key : String) :
      Table.find? (Table.ofRows (named.map fun row => (row.1, Attribute.value row.2))) key =
        (Table.find? (Table.ofRows named) key).map .value := by
    rw [Table.ofRows_map (fun _ => Attribute.value), Table.find?_mapValues (fun _ => Attribute.value)]
  have hnodup : Table.ofRows named = named := Table.ofRows_of_nodup (by
    obtain ⟨rows, u', -, hrows⟩ := Run.of_exec_bind hrows
    cases hrows
    exact Table.nodup_keys_ofRows rows)
  -- what stands in the attributes is the same in every world with the same cells
  have spared (u' : World) (hc : u'.cells = u.cells) (answers methods : List (String × Attribute))
      (ha : ∀ key ∈ Table.keys answers, key = "Response")
      (hm : ∀ key ∈ Table.keys methods, key = "execute") :
      (∀ key ∈ names, Table.find? (Table.ofRows (named.map (fun row =>
        (row.1, Attribute.value row.2)) ++ answers ++ methods)) key = none) ∧
      ∀ x slots, Table.find? (Table.ofRows (named.map (fun row =>
        (row.1, Attribute.value row.2)) ++ answers ++ methods)) "__slots__" = some (.value x) →
        ClassPlan.slotNames (u'.followed x) = .ok slots → ∀ key ∈ names, key ∉ slots := by
    constructor
    · intro key hk
      rw [find?_writtenClass (fun hm => (hne key hk).1 (ha key hm))
        (fun hk' => (hne key hk).2 (hm key hk')), hvalue, hnodup, Table.find?_eq_none]
      · rfl
      · exact fun hm => hs.keys key hk (hkeys key hm)
    · intro x slots hx hslots key hk
      rw [find?_writtenClass (fun hm => absurd (ha _ hm) (by decide))
        (fun hk' => absurd (hm _ hk') (by decide)), hvalue, hnodup] at hx
      obtain ⟨y, hy, he⟩ := Option.map_eq_some_iff.mp hx
      cases he
      rw [World.followed_data (hdata _ (Table.mem_of_find? hy)).1 hc] at hslots
      exact hs.slots w u named x slots hrows hy hslots key hk
  have unanswered {methods : List (String × Attribute)}
      (hm : ∀ key ∈ Table.keys methods, key = "execute") (hr : Run.exec (do
        let n ← m.buildClass name base
          (named.map (fun row => (row.1, Attribute.value row.2)) ++ [] ++ methods)
        Run.bindClass id (.made n)) u = (x, v)) : m.MakesSparing w C names id base name x v := by
    obtain ⟨hnone, hslots⟩ := spared u rfl [] methods (by simp [Table.keys]) hm
    exact ⟨u, hg, .inr ⟨_, hnone, hslots, hr⟩⟩
  have answered (r : String) {methods : List (String × Attribute)}
      (hm : ∀ key ∈ Table.keys methods, key = "execute") (hr : Run.exec (do
        let n ← m.buildClass r (.made answerClass) []
        let n ← m.buildClass name base (named.map (fun row => (row.1, Attribute.value row.2)) ++
          [("Response", Attribute.value (World.classValue (.made n)))] ++ methods)
        Run.bindClass id (.made n)) u = (x, v)) : m.MakesSparing w C names id base name x v := by
    have hbu := hg.later.bundled hb
    have untold : ∀ k a, u.find? (.made answerClass) "__init_subclass__" ≠ some (.made k, a) := by
      intro k a h
      rw [hbu.find? (by decide) (by decide)] at h
      cases h
    have hslots (x : Value) :
        Table.find? (Table.ofRows ([] : List (String × Attribute))) "__slots__" ≠
          some (.value x) := by
      intro h
      cases h
    have hqual (x : Value) :
        Table.find? (Table.ofRows ([] : List (String × Attribute))) "__qualname__" ≠
          some (.value x) := by
      intro h
      cases h
    have built {x : Except Fault Nat} {u' : World}
        (hr : (m.buildClass r (.made answerClass) []).exec u = (x, u')) :=
      of_buildUntold (hbu.rooted (by decide) (by decide)) untold hslots hqual hr
    rcases Run.exec_bind_cases hr with ⟨f, rfl, hbuild⟩ | ⟨n, u', hbuild, hr⟩
    · rcases built hbuild with ⟨rfl, -⟩ | ⟨⟨⟩, -⟩
      exact ⟨v, hg, .inl ⟨f, rfl, rfl⟩⟩
    · obtain ⟨-, hno, -⟩ | ⟨-, rfl⟩ := built hbuild
      · exact absurd rfl (hno n)
      obtain ⟨hnone, hslots⟩ := spared (u.withClass _) rfl [("Response", .value
        (World.classValue (.made n)))] methods (fun key hk => List.mem_singleton.mp hk) hm
      exact ⟨_, ⟨hg.later.newClass _, hg.data⟩, .inr ⟨_, hnone, hslots, hr⟩⟩
  have none_of : ∀ key ∈ Table.keys ([] : List (String × Attribute)), key = "execute" := by
    simp [Table.keys]
  have one_of (b : Block) : ∀ key ∈ Table.keys [("execute", Attribute.ofObject (.ownMethod b))],
      key = "execute" :=
    fun key hk => List.mem_singleton.mp hk
  cases response with
  | none =>
    cases execute with
    | none => exact unanswered none_of hr
    | some b => exact unanswered (one_of b) hr
  | some r =>
    cases execute with
    | none => exact answered r none_of hr
    | some b => exact answered r (one_of b) hr

/-! ## The class that is made -/

variable {m : Nat} {card : FunctionCard} {served : ServingCard} {s : Shelf} {cell : Option Nat}
  {given : List (String × Attribute)}

/-- A class that is made below a class of a function-calling host starts with its parameters, and with
neither a name nor a description. -/
theorem of_buildFunction (k : Nat) (h : w.FunctionClass m card s C) (hb : w.Bundled)
    (hd : w.HoldsData C)
    (hnone : ∀ key ∈ functionNames, Table.find? (Table.ofRows given) key = none)
    (hslots : ∀ x slots, Table.find? (Table.ofRows given) "__slots__" = some (.value x) →
      ClassPlan.slotNames (w.followed x) = .ok slots → ∀ key ∈ functionNames, key ∉ slots)
    {x : Except Fault Nat}
    (hr : ((nested (k + 2)).buildClass name (.made m) given).exec w = (x, v)) :
    (v = w ∧ ∀ n, x ≠ .ok n) ∨ x = .ok w.classes.length ∧ w.Later v (fun _ => False) ∧
      v.FunctionClass w.classes.length ⟨.null, .null, card.parameters⟩ ⟨w.cells.length, s.rows⟩ C ∧
      v.className (.made w.classes.length) = name := by
  rcases exec_buildSparing (nested (k + 2)) name (.made m) functionNames_plain hnone hslots with
    ⟨f, hf⟩ | ⟨cls, hbuild, rfl, hl, ho, hnone⟩
  · cases hf.symm.trans hr
    exact .inl ⟨rfl, fun n h => nomatch h⟩
  replace ho := ho h.opens
  rw [exec_tellAbove k h.base hb hd hl ho (hnone _ (by decide))] at hbuild
  cases hbuild.symm.trans hr
  obtain ⟨hlater, hcls, hshelf⟩ := h.base.withTool hd hl ho
  have hline := h.line
  rw [← hlater.lineage h.methods.rooted] at hline
  have hown (key : String) (hk : key ∈ functionNames) (hp : "_parameters" ≠ key) :
      (if "_parameters" = key then some (Attribute.value (cellValue w.cells.length))
        else Table.find? cls.attributes key) = none := by
    rw [if_neg hp, hnone key hk]
  have hmethods : ∀ row ∈ functionMethods, row.1 ∈ functionNames ∧ "_parameters" ≠ row.1 := by
    decide
  refine .inr ⟨rfl, hlater, ?_, hcls.className⟩
  exact hcls.functionClass (hlater.functionBase h.base hd (fun _ _ => id) (fun _ _ => id)) hline
    (by have := hb.classes_lt; omega) (fun row hr => hown _ (hmethods row hr).1 (hmethods row hr).2)
    (hown _ (by decide) (by decide)) (.inr ⟨hown _ (by decide) (by decide), rfl⟩)
    (.inr ⟨hown _ (by decide) (by decide), rfl⟩) ⟨trivial, trivial⟩ ⟨_, hcls.find?_own (if_pos rfl)⟩
    hshelf

theorem of_buildServing (k : Nat) (h : w.ServingClass m served cell C) (hb : w.Bundled)
    (hnone : ∀ key ∈ servingNames, Table.find? (Table.ofRows given) key = none)
    (hslots : ∀ x slots, Table.find? (Table.ofRows given) "__slots__" = some (.value x) →
      ClassPlan.slotNames (w.followed x) = .ok slots → ∀ key ∈ servingNames, key ∉ slots)
    {x : Except Fault Nat}
    (hr : ((nested k).buildClass name (.made m) given).exec w = (x, v)) :
    (v = w ∧ ∀ n, x ≠ .ok n) ∨ x = .ok w.classes.length ∧ w.Later v (fun _ => False) ∧
      v.ServingClass w.classes.length ⟨.null, .null, none⟩ none C ∧
      v.className (.made w.classes.length) = name := by
  rcases exec_buildSparing (nested k) name (.made m) servingNames_plain hnone hslots with
    ⟨f, hf⟩ | ⟨cls, hbuild, rfl, hl, ho, hnone⟩
  · cases hf.symm.trans hr
    exact .inl ⟨rfl, fun n h => nomatch h⟩
  replace ho := ho h.opens
  rw [exec_tellNone h.methods.rooted h.untold hl] at hbuild
  cases hbuild.symm.trans hr
  have hlater := w.later_withClass cls
  have hcls := w.classAt_withClass cls h.methods.rooted hl ho
  have hline := h.line
  rw [← hlater.lineage h.methods.rooted] at hline
  have hmethods : ∀ row ∈ servingMethods, row.1 ∈ servingNames := by decide
  refine .inr ⟨rfl, hlater, ?_, hcls.className⟩
  have hfields := h.fields
  rw [← hlater.attributeNames h.methods.rooted] at hfields
  refine hcls.servingClass (hlater.servingBase h.base) hfields hline (by have := hb.classes_lt; omega)
    (fun row hr => hnone _ (hmethods row hr)) (hnone _ (by decide))
    (.inr ⟨hnone _ (by decide), rfl⟩) (.inr ⟨hnone _ (by decide), rfl⟩) ?_ ?_ ?_
    (fun k h => nomatch h)
  · exact ⟨trivial, trivial⟩
  · rw [hnone _ (by decide)]
    exact .none
  · rintro k ⟨o, ho, -⟩
    rw [hcls.own?, hnone _ (by decide)] at ho
    cases ho

theorem of_buildBare (m : Machine) (h : w.PlainBase base) (hb : w.Bundled)
    (hnone : ∀ key ∈ plainNames, Table.find? (Table.ofRows given) key = none)
    (hslots : ∀ x slots, Table.find? (Table.ofRows given) "__slots__" = some (.value x) →
      ClassPlan.slotNames (w.followed x) = .ok slots → ∀ key ∈ plainNames, key ∉ slots)
    {x : Except Fault Nat} (hr : (m.buildClass name base given).exec w = (x, v)) :
    (v = w ∧ ∀ n, x ≠ .ok n) ∨ x = .ok w.classes.length ∧ w.Later v (fun _ => False) ∧
      v.PlainClass w.classes.length ∧ v.className (.made w.classes.length) = name := by
  rcases exec_buildSparing m name base plainNames_plain hnone hslots with
    ⟨f, hf⟩ | ⟨cls, hbuild, rfl, hl, -, hnone⟩
  · cases hf.symm.trans hr
    exact .inl ⟨rfl, fun n h => nomatch h⟩
  rw [exec_tellNone h.rooted h.untold hl] at hbuild
  cases hbuild.symm.trans hr
  refine .inr ⟨rfl, w.later_withClass cls, ?_, by simp [World.className, World.withClass]⟩
  exact h.withClass (by have := hb.classes_lt; omega) hl hnone

end Machine

end Toolwright
