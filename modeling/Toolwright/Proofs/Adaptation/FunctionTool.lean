import Toolwright.Proofs.Adaptation.FunctionClass

/-!
# Making tools of function-calling hosts

What is left of a definition when it was adapted: the class keeps what the definition declared at that
moment. A definition whose names have no texts is not adapted.
-/

namespace Toolwright

set_option autoImplicit false

namespace World

variable {w v : World} {n : Nat} {b : ClassRef} {name : String} {own : String → Option Attribute}

theorem ClassAt.hasMethods (h : w.ClassAt n name b own) {methods : List (String × HostMethod)}
    (hb : w.HasMethods b methods) (ho : ∀ row ∈ methods, own row.1 = none) :
    w.HasMethods (.made n) methods where
  rooted := h.rooted hb.rooted
  finds row hr := by
    rw [h.find?_above (ho row hr)]
    exact hb.finds row hr

def describe (w : World) (n : Nat) (description : Value) : World :=
  match description with
  | .null => w
  | x => w.setAttribute n "_description" (.value x)

def publishAs (w : World) (n : Nat) (text : String) (description : Value) : World :=
  (w.setAttribute n "_name" (.value (.str text))).describe n description

def Describes (a : Option Attribute) (description : Value) : Prop :=
  a = some (.value description) ∨ a = none ∧ description = .null

theorem ClassAt.describe (h : w.ClassAt n name b own) (ho : own "_description" = none) (x : Value) :
    ∃ own', (w.describe n x).ClassAt n name b own' ∧ Describes ( own' "_description") x ∧
      ∀ key, key ≠ "_description" → own' key = own key := by
  by_cases hx : x = .null
  · subst hx
    exact ⟨own, h, .inr ⟨ho, rfl⟩, fun _ _ => rfl⟩
  · have hset : w.describe n x = w.setAttribute n "_description" (.value x) := by
      cases x <;> first | exact absurd rfl hx | rfl
    rw [hset]
    exact ⟨_, h.set "_description" (.value x), .inl (if_pos rfl), fun key hk => if_neg hk.symm⟩

theorem describe_classes (n : Nat) (x : Value) (h : ∃ classes, v = { w with classes }) :
    ∃ classes, v.describe n x = { w with classes } := by
  obtain ⟨classes, rfl⟩ := h
  unfold World.describe
  split <;> exact ⟨_, rfl⟩

theorem publishAs_classes (w : World) (n : Nat) (text : String) (description : Value) :
    ∃ classes, w.publishAs n text description = { w with classes } :=
  describe_classes n description ⟨_, rfl⟩

theorem Later.describe {changed : Nat → Prop} (h : w.Later v changed) (hn : w.classes.length ≤ n)
    (x : Value) : w.Later (v.describe n x) changed := by
  unfold World.describe
  split
  · exact h
  · exact h.setAttribute hn _ _

end World

namespace Machine

variable {w v : World} {n : Nat} {b : ClassRef} {name : String} {own : String → Option Attribute}
  {p : Draft} {D : Definition Stored} {C : Nat → Prop}

def naming : List HostMethod := [.functionName, .servedName]

theorem exec_nameClass (k : Nat) {method : HostMethod} (hm : method ∈ naming) (text : String) :
    ((nested (k + 1)).use (.function (.bundled (.host method))
      (some (World.classValue (.made n)))) [.str text] []).exec w =
      (.ok .null, w.setAttribute n "_name" (.value (.str text))) := by
  have hname : method ∉ ofObjects := by
    revert hm
    cases method <;> decide
  rw [use_classMethod k hname]
  have declared := exec_declareOn (w := w) (n := n) (show Plain "_name" from ⟨by decide, by decide⟩)
    (.str text)
  simp only [naming, List.mem_cons, List.not_mem_nil, or_false] at hm
  rcases hm with rfl | rfl <;> exact declared

theorem exec_describeClass (k : Nat) (x : Value) : ∃ a, ((nested (k + 1)).use
    (.function (.bundled (.host .description)) (some (World.classValue (.made n)))) [x] []).exec w =
      (.ok a, w.describe n x) := by
  rw [use_classMethod k (by decide)]
  have declared (x : Value) := exec_declareOn (w := w) (n := n)
    (show Plain "_description" from ⟨by decide, by decide⟩) x
  cases x with
  | null =>
    show ∃ a, (ownValue (.made n) "_description").exec w = (.ok a, w)
    unfold ownValue
    rw [Run.exec_bind, Run.exec_world]
    dsimp only
    cases w.own? (.made n) "_description" <;> exact ⟨_, rfl⟩
  | _ => exact ⟨_, declared _⟩

theorem exec_publish (k : Nat) (method : HostMethod) (h : w.Declares p D C) (hl : w.Later v (fun _ => False))
    (hn : w.classes.length ≤ n) (hc : v.ClassAt n name b own) {methods : List (String × HostMethod)}
    (hb : w.HasMethods b methods) (ho : ∀ row ∈ methods, own row.1 = none)
    (hkeys : "_name" ∉ Table.keys methods) (hd : own "_description" = none)
    (hm : method ∈ naming)
    (hname : ("tool_name", method) ∈ methods) (hdescribe : ("description", .description) ∈ methods)
    {named : Run String} {text : String} (ht : named.exec v = (.ok text, v)) :
    ∃ u own', ((nested (k + 1)).publish (World.classValue (.made n)) p.value named).exec v =
        (.ok (), u) ∧ u = v.publishAs n text D.description ∧ w.Later u (fun _ => False) ∧
      u.ClassAt n name b own' ∧ own' "_name" = some (.value (.str text)) ∧
      World.Describes ( own' "_description") D.description ∧
      ∀ key, key ∉ ["_name", "_description"] → own' key = own key := by
  let named' := v.setAttribute n "_name" (.value (.str text))
  have hl' : w.Later named' (fun _ => False) := hl.setAttribute hn _ _
  have hc' := hc.set "_name" (.value (.str text))
  obtain ⟨own', hc'', hdescribes, hrest⟩ := hc'.describe (by simpa using hd) D.description
  have hown (row : String × HostMethod) (hr : row ∈ methods) :
      (if "_name" = row.1 then some (Attribute.value (.str text)) else own row.1) = none := by
    rw [if_neg, ho row hr]
    intro he
    rw [he] at hkeys
    exact hkeys (List.mem_map_of_mem hr)
  have found {u : World} {own' : String → Option Attribute} (hu : w.Later u (fun _ => False))
      (hcu : u.ClassAt n name b own') (ho' : ∀ row ∈ methods, own' row.1 = none)
      {key : String} {method : HostMethod} (hr : (key, method) ∈ methods) :
      ∃ k, u.find? (.made n) key = some (k, .ofClass (.bundled (.host method))) := by
    obtain ⟨holder, hf⟩ := (hcu.hasMethods (hu.hasMethods hb) ho').finds _ hr
    exact ⟨_, hf⟩
  obtain ⟨a, hdescribed⟩ := exec_describeClass (w := named') (n := n) k D.description
  have hdef := (h.unchanged hl').declares
  refine ⟨named'.describe n D.description, own', ?_, rfl, hl'.describe hn _, hc'', ?_, hdescribes,
    ?_⟩
  · unfold publish
    rw [Run.exec_bind, exec_reachMethod _ ⟨by decide, by decide⟩ (found hl hc ho hname)]
    dsimp only
    rw [Run.exec_bind, ht]
    dsimp only
    rw [Run.exec_bind, exec_nameClass k hm]
    dsimp only
    rw [Run.exec_bind, exec_reachMethod _ ⟨by decide, by decide⟩ (found hl' hc' hown hdescribe)]
    dsimp only
    rw [Run.exec_bind, exec_sendDescription k hdef.toDrafts hdef.bundled]
    dsimp only
    rw [Run.exec_bind, hdescribed]
    rfl
  · rw [hrest "_name" (by decide)]
    exact if_pos rfl
  · intro key hk
    simp only [List.mem_cons, List.not_mem_nil, or_false, not_or] at hk
    rw [hrest key hk.2]
    exact if_neg (Ne.symm hk.1)

/-! ## The parameters -/

/-- A parameter of a class as it is taken over from a definition: whether it is required is not. -/
def takenOver (spec : ParamSpec) (name : String) : Parameter :=
  ⟨name, spec.type, spec.description, .bool true⟩

/-- The table in which parameters were declared under names. -/
def declaredTable (rows : List (ParamSpec × String)) (t : ParameterTable) : ParameterTable :=
  rows.foldl (fun t row => Table.insert row.2 (takenOver row.1 row.2) t) t

end Machine

namespace World

def withParameters (w : World) (s : Shelf) : List Parameter → World
  | [] => w
  | p :: ps => (w.withParameter s p).withParameters (s.adding w p.name) ps

/-- The texts of the names of parameters. -/
def textsOf (w : World) (specs : List ParamSpec) : Except Fault (List String) :=
  specs.mapM fun spec => w.textOf spec.name

theorem textsOf_nil (w : World) : w.textsOf [] = .ok [] := rfl

theorem textsOf_cons (w : World) (spec : ParamSpec) (specs : List ParamSpec) :
    w.textsOf (spec :: specs) =
      (do return (← w.textOf spec.name) :: (← w.textsOf specs)) := List.mapM_cons

theorem Retains.textsOf {w v : World} {C : Nat → Prop} (h : w.Retains v C) (hd : w.HoldsData C)
    {specs : List ParamSpec} (hx : ∀ spec ∈ specs, spec.name.Within (w.data C)) :
    v.textsOf specs = w.textsOf specs := by
  induction specs with
  | nil => rw [textsOf_nil, textsOf_nil]
  | cons spec specs ih =>
    rw [textsOf_cons, textsOf_cons, h.textOf hd (hx spec List.mem_cons_self),
      ih fun spec hs => hx spec (List.mem_cons_of_mem _ hs)]

end World

namespace Machine

variable {w v : World} {n : Nat} {C : Nat → Prop}

def declareAll (m : Machine) (cls : Value) (params : List Value) : Run PUnit :=
  forIn params PUnit.unit fun p _ => do
    let param ← m.reach cls "param"
    let name ← m.ask p "name"
    let type ← m.ask p "type"
    let _ ← m.use param [name] [("type", type), ("desc", ← m.ask p "description")]
    return .yield PUnit.unit

variable {s : Shelf} {t : ParameterTable}

structure Furnished (w : World) (n : Nat) (s : Shelf) (t : ParameterTable) (C : Nat → Prop) :
    Prop where
  methods : w.HasMethods (.made n) functionMethods
  parameters : w.find? (.made n) "_parameters" = some (.made n, .value (cellValue s.cell))
  shelf : w.Shelves s t C

theorem of_declareAll (k : Nat) (hb : w.Bundled) (hd : w.HoldsData C) (hf : Furnished w n s t C)
    {places : List (Nat × Nat)} {specs : List ParamSpec}
    (hs : List.Forall₂ (fun s spec => w.ObjectAt s.1 Shape.paramSpec.cls s.2 (ParamSpec.fields spec))
      places specs)
    (hc : ∀ place ∈ places, place.2 ≠ s.cell)
    (hx : ∀ spec ∈ specs, ∀ x ∈ spec.values, x.Within (w.data C) ∧ x.IsShared)
    {x : Except Fault PUnit}
    (hr : (declareAll (nested (k + 3)) (World.classValue (.made n))
      (places.map fun s => objectValue s.1)).exec w = (x, v)) :
    w.Later v (· = s.cell) ∧ Hosted x ∧ v.log = w.log ∧
      (∀ names, w.textsOf specs = .ok names → x = .ok PUnit.unit) ∧ ∀ a, x = .ok a → ∃ names rows,
      w.textsOf specs = .ok names ∧ v = w.withParameters s (List.zipWith takenOver specs names) ∧
      Furnished v n ⟨s.cell, rows⟩ (declaredTable (specs.zip names) t) C ∧
      ∀ row ∈ rows, row ∈ s.rows ∨ w.cells.length ≤ row.2.2 := by
  induction specs generalizing w s t places with
  | nil =>
    cases hs
    cases hr
    exact ⟨World.Later.refl v _, .ok _, rfl, fun _ _ => rfl,
      fun _ _ => ⟨[], s.rows, rfl, rfl, hf, fun row hr => .inl hr⟩⟩
  | cons spec specs ih =>
    obtain _ | @⟨place, _, places, _, hobj, hrest⟩ := hs
    have hspec := hx spec List.mem_cons_self
    have hname := (hspec spec.name (by simp [ParamSpec.values])).1
    have each : declareAll (nested (k + 3)) (World.classValue (.made n))
        ((place :: places).map fun s => objectValue s.1) = (do
          let param ← (nested (k + 3)).reach (World.classValue (.made n)) "param"
          let name ← (nested (k + 3)).ask (objectValue place.1) "name"
          let type ← (nested (k + 3)).ask (objectValue place.1) "type"
          let _ ← (nested (k + 3)).use param [name] [("type", type),
            ("desc", ← (nested (k + 3)).ask (objectValue place.1) "description")]
          declareAll (nested (k + 3)) (World.classValue (.made n))
            (places.map fun s => objectValue s.1)) := by
      unfold declareAll
      rw [List.map_cons, List.forIn_cons]
      simp only [bind_assoc, pure_bind]
    have ask (field : String) {x : Value}
        (hp : Session.start.isPlain (.made 5) field = true)
        (hfield : Table.find? spec.fields field = some x) :=
      exec_askSpec (nested (k + 3)) hb hobj hp hfield
    obtain ⟨holder, hparam⟩ := hf.methods.finds ("param", .param) (by decide)
    rw [each, Run.exec_bind, exec_reachMethod _ ⟨by decide, by decide⟩ ⟨_, hparam⟩] at hr
    dsimp only at hr
    rw [Run.exec_bind, ask "name" (by decide) rfl] at hr
    dsimp only at hr
    rw [Run.exec_bind, ask "type" (by decide) rfl] at hr
    dsimp only at hr
    rw [Run.exec_bind, ask "description" (by decide) rfl] at hr
    dsimp only at hr
    rw [Run.exec_bind, use_classMethod (k + 2) (by decide)] at hr
    have declared : ((nested (k + 2)).applyClassMethod .param (.made n) [spec.name]
        [("type", spec.type), ("desc", spec.description)]).exec w =
        ((nested (k + 2)).declareParameter (.made n) spec.name spec.type spec.description
          (.bool true)).exec w := rfl
    rw [declared] at hr
    cases ht : w.textOf spec.name with
    | error f =>
      have failed : ((nested (k + 2)).declareParameter (.made n) spec.name spec.type spec.description
          (.bool true)).exec w = (.error f, w) := by
        unfold declareParameter
        rw [Run.exec_bind, exec_text _ hd hname, ht]
      rw [failed] at hr
      cases hr
      refine ⟨World.Later.refl v _, (World.hosted_textOf _ _).of_eq ht, rfl, fun names hnames => ?_,
        fun _ h => by cases h⟩
      rw [World.textsOf_cons, ht] at hnames
      cases hnames
    | ok name =>
      have hfields : ∀ x ∈ [spec.type, spec.description, .bool true],
          x.Within (w.data C) ∧ x.IsShared := by
        intro x hm
        simp only [List.mem_cons, List.not_mem_nil, or_false] at hm
        rcases hm with rfl | rfl | rfl
        · exact hspec _ (by simp [ParamSpec.values])
        · exact hspec _ (by simp [ParamSpec.values])
        · exact ⟨trivial, rfl⟩
      let u := w.withParameter s (takenOver spec name)
      obtain ⟨hdeclared, hl, hshelf, hrows⟩ := exec_declareParameter (p := takenOver spec name) k
        hf.shelf hb hd ⟨_, hf.parameters⟩ hname ht hfields
      have hdeclared : ((nested (k + 2)).declareParameter (.made n) spec.name spec.type
          spec.description (.bool true)).exec w = (.ok .null, u) := hdeclared
      rw [hdeclared] at hr
      dsimp only at hr
      have happart : ∀ n, C n → ¬ n = s.cell := fun n hn he =>
        hf.shelf.apart _ List.mem_cons_self (he ▸ hn)
      have hret := hl.retains hd happart
      have hfu : Furnished u n (s.adding w name) (Table.insert name (takenOver spec name) t) C :=
        ⟨hl.hasMethods hf.methods, (hl.find? hf.methods.rooted _).trans hf.parameters, hshelf⟩
      have hobjs := ((List.forall₂_and_left _ _).mpr
        ⟨fun p hp => hc p (List.mem_cons_of_mem _ hp), hrest⟩).imp fun _ _ hp =>
          hl.objectAt hp.2 hp.1
      have hnames : ∀ spec ∈ specs, spec.name.Within (w.data C) := fun spec hs =>
        (hx spec (List.mem_cons_of_mem _ hs) _ List.mem_cons_self).1
      obtain ⟨hl', hhosted, hlog', htold, hdone⟩ := ih (hl.bundled hb) (hret.holdsData hd) hfu
        hobjs (fun p hp => hc p (List.mem_cons_of_mem _ hp))
        (fun spec hs x hm => ⟨(hx spec (List.mem_cons_of_mem _ hs) x hm).1.mono hret.data_below,
          (hx spec (List.mem_cons_of_mem _ hs) x hm).2⟩) hr
      have htexts := hret.textsOf hd hnames
      refine ⟨hl.trans hl' fun _ hn _ => hn, hhosted, hlog', fun names ha => ?_, fun a ha => ?_⟩
      · rw [World.textsOf_cons, ht, ← htexts] at ha
        obtain ⟨rest, hrest, -⟩ := of_bind_ok (show (u.textsOf specs >>= _) = .ok names from ha)
        exact htold rest hrest
      obtain ⟨names, rows', hnames, hv, hfv, hrows'⟩ := hdone a ha
      refine ⟨name :: names, rows', ?_, hv, hfv, ?_⟩
      · rw [World.textsOf_cons, ht, ← htexts, hnames]
        rfl
      · intro row hrow
        rcases hrows' row hrow with hold | hnew
        · exact hrows row hold
        · exact .inr (Nat.le_trans hl.cells_le hnew)

/-! ## The class -/

/-- The attributes that a class of a function-calling host has itself. -/
structure ToolAttributes (D : Definition Stored) (p : Draft) (reserved : List String) (text : String)
    (own : String → Option Attribute) : Prop where
  name : own "_name" = some (.value (.str text))
  description : World.Describes (own "_description") D.description
  definition : own "definition" = some (.value p.value)
  execute : own "execute" = some (.ofObject (.runs p.value))
  module : own "__module__" = some (.value (.str World.llmModule))
  doc : own "__doc__" = some (.value D.description)
  helpers : ∀ key, key ∉ ClassPlan.standing →
    key ∉ ["_name", "_description", "_parameters", "definition", "execute"] →
    own key = (D.free? reserved key).map fun a => (ClassPlan.settle (key, a)).2
  covers : D.Covers reserved own

def fixedRows (doc : Value) (p : Draft) : List (String × Attribute) :=
  [("__module__", .value (.str World.llmModule)), ("__doc__", .value doc),
    ("definition", .value p.value), ("execute", .ofObject (.runs p.value))]

theorem find?_functionAttributes {D : Definition Stored} (p : Draft) (doc : Value)
    (reserved : List String) (hi : (Table.keys D.instanceHelpers).Nodup)
    (hc : (Table.keys D.classHelpers).Nodup) (key : String) :
    Table.find? (Table.ofRows (withAttributes (D.freeRows reserved) (fixedRows doc p))) key =
      (Table.find? (fixedRows doc p) key).or (D.free? reserved key) := by
  unfold withAttributes
  rw [Table.ofRows_of_nodup (Table.nodup_keys_ofRows _), Table.find?_ofRows_append,
    Definition.find?_freeRows reserved hi hc, Table.ofRows_of_nodup (by simp [Table.keys, fixedRows])]

theorem find?_functionClass {D : Definition Stored} (w : World) (b : ClassRef) (name : String)
    (p : Draft) (doc : Value) (reserved : List String)
    (hi : (Table.keys D.instanceHelpers).Nodup) (hc : (Table.keys D.classHelpers).Nodup)
    (key : String) (hk : key ∉ ClassPlan.standing) :
    Table.find? (builtClass w name b
      (withAttributes (D.freeRows reserved) (fixedRows doc p))).attributes key =
      ((Table.find? (fixedRows doc p) key).or (D.free? reserved key)).map
        fun a => (ClassPlan.settle (key, a)).2 := by
  rw [find?_builtClass hk, find?_functionAttributes p doc reserved hi hc]

theorem exec_tellAbove (k : Nat) {b : ClassRef} {s : Shelf} {t : ParameterTable}
    (hbase : w.FunctionBase b s t C) (hb : w.Bundled) (hd : w.HoldsData C) {cls : HostClass}
    (hl : cls.lineage = w.lineage b) (ho : cls.isOpen = !w.isOpen b)
    (hp : Table.find? cls.attributes "_parameters" = none) :
    ((nested (k + 2)).tellAbove w.classes.length).exec (w.withClass cls) =
      (.ok w.classes.length,
        ((w.withClass cls).withCell (.ofRows (objectRows s.rows))).setAttribute w.classes.length
          "_parameters" (.value (cellValue w.cells.length))) := by
  have hlater : w.Later (w.withClass cls) (fun _ => False) := w.later_withClass cls
  have hcls := w.classAt_withClass cls hbase.rooted hl ho
  obtain ⟨holder, htold⟩ := hbase.told
  obtain ⟨holder', hparams⟩ := hbase.parameters
  have found : ((w.withClass cls).above (.made w.classes.length)).findSome? (fun holder =>
      ((w.withClass cls).own? holder "__init_subclass__").map (holder, ·)) =
        some (.made holder, .ofClass (.bundled (.host .copyParameters))) := by
    have habove : (w.withClass cls).above (.made w.classes.length) = (w.withClass cls).lineage b := by
      have := hcls.lineage
      exact (List.cons.inj this).2
    rw [habove, ← htold]
    exact hlater.find? hbase.rooted _
  have copied := exec_copyParameters (n := w.classes.length) k
    (hlater.shelves hbase.shelf hd (fun _ _ => id) (fun _ _ => id)) (hlater.bundled hb)
    ⟨holder', (hcls.find?_above hp).trans ((hlater.find? hbase.rooted _).trans hparams)⟩
  unfold tellAbove
  rw [Run.exec_bind, Run.exec_world]
  dsimp only
  rw [found]
  dsimp only
  have used : ((nested (k + 2)).use ((w.withClass cls).reached (.made holder)
      (.made w.classes.length) none (.ofClass (.bundled (.host .copyParameters)))) [] []).exec
        (w.withClass cls) =
      ((nested (k + 1)).copyParameters (.made w.classes.length)).exec (w.withClass cls) := rfl
  rw [Run.exec_bind, used, copied]
  rfl

variable {p : Draft} {D : Definition Stored}

theorem exec_sizeOf {n size : Nat} {held : Value} (h : w.cells[n]? = some held)
    (hs : held.length? = some size) : (sizeOf (cellValue n)).exec w = (.ok size, w) := by
  unfold sizeOf
  rw [Run.exec_bind, exec_lookCell h]
  dsimp only
  rw [hs]
  rfl

theorem exec_nameText (m : Machine) (h : w.Declares p D C) :
    (m.nameText p.value).exec w = (w.textOf D.name, w) := by
  unfold nameText
  rw [Run.exec_bind, exec_askName m h.toDrafts h.bundled]
  exact exec_text m h.data (h.values _ List.mem_cons_self).1

def noteTool (m : Machine) (definition cls : Value) : Run Value := do
  let name ← m.ask definition "name"
  let params ← sizeOf (← m.ask definition "params")
  let helpers ← m.ask definition "helper_methods"
  let ofInstance ← sizeOf (← m.ask helpers "instance")
  let ofClass ← sizeOf (← m.ask helpers "class_scope")
  Run.note adaptersLogger 10 (do
    return "Materialized LLM tool " ++ (← m.text name) ++ " (" ++ toString params ++ " params, " ++
      toString (ofInstance + ofClass) ++ " helpers)")
  return cls

theorem exec_noteTool {m : Machine} (h : w.Declares p D C) (cls : Value) :
    (∃ log, warnings log = warnings w.log ∧
      (m.noteTool p.value cls).exec w = (.ok cls, { w with log })) ∨
      ∃ f, w.textOf D.name = .error f ∧ (m.noteTool p.value cls).exec w = (.error f, w) := by
  let size := toString D.params.length
  let helpers := toString (D.instanceHelpers.length + D.classHelpers.length)
  let message (text : String) := "Materialized LLM tool " ++ text ++ " (" ++ size ++ " params, " ++
    helpers ++ " helpers)"
  have hmessage : Run.exec (do return message (← m.text D.name)) w =
      ((w.textOf D.name).map message, w) := by
    rw [Run.exec_bind, exec_text m h.data (h.values _ List.mem_cons_self).1]
    cases w.textOf D.name <;> rfl
  have rows {n : Nat} {helpers : List (String × Stored)}
      (hn : w.cells[n]? = some (.ofRows (helperRows helpers))) :
      (sizeOf (cellValue n)).exec w = (.ok helpers.length, w) :=
    exec_sizeOf hn (by simp [Value.ofRows, Value.length?, helperRows])
  have noted : (m.noteTool p.value cls).exec w = Run.exec (do
      Run.note adaptersLogger 10 (do return message (← m.text D.name))
      return cls) w := by
    unfold noteTool
    rw [Run.exec_bind, exec_askName m h.toDrafts h.bundled]
    dsimp only
    rw [Run.exec_bind, exec_askParams m h.toDrafts h.bundled]
    dsimp only
    rw [Run.exec_bind, exec_sizeOf h.params
      (show _ = some D.params.length by simp [Value.length?, h.specs.length_eq])]
    dsimp only
    rw [Run.exec_bind, exec_askHelpers m h.toDrafts h.bundled]
    dsimp only
    rw [Run.exec_bind, exec_askTable m h.toDrafts h.bundled
      (show Session.start.isPlain (.made 4) "instance" = true by decide) rfl]
    dsimp only
    rw [Run.exec_bind, rows h.ofInstance]
    dsimp only
    rw [Run.exec_bind, exec_askTable m h.toDrafts h.bundled
      (show Session.start.isPlain (.made 4) "class_scope" = true by decide) rfl]
    dsimp only
    rw [Run.exec_bind, rows h.ofClass]
  rw [noted, Run.exec_bind, exec_noteWorded _ _ hmessage]
  by_cases hlog : w.logFrom ≤ 10
  · rw [if_pos hlog]
    cases ht : w.textOf D.name with
    | ok text =>
      refine .inl ⟨_, ?_, rfl⟩
      simp [warnings, List.filter_append, Except.map, Except.toOption]
    | error f =>
      refine .inr ⟨f, rfl, ?_⟩
      dsimp only [Except.map, Except.toOption, Option.toList, List.map]
      rw [List.append_nil]
  · rw [if_neg hlog]
    exact .inl ⟨w.log, rfl, rfl⟩

theorem of_noteTool {m : Machine} (h : w.Declares p D C) {cls : Value} {x : Except Fault Value}
    (hr : (m.noteTool p.value cls).exec w = (x, v)) :
    w.Noted v ∧ Hosted x ∧ warnings v.log = warnings w.log ∧ ∀ a, x = .ok a → a = cls := by
  rcases exec_noteTool h cls with ⟨log, hquiet, hdone⟩ | ⟨f, hf, hfailed⟩
  · cases hdone.symm.trans hr
    refine ⟨⟨_, rfl⟩, .ok _, hquiet, ?_⟩
    rintro _ ⟨⟩
    rfl
  · cases hfailed.symm.trans hr
    exact ⟨World.Noted.refl w, (World.hosted_textOf _ _).of_eq hf, rfl, fun _ h => by cases h⟩

theorem mem_reservedNames {b : ClassRef} {name : String} (hn : name.startsWith "__" = false)
    (h : name ∈ w.attributeNames b) :
    (reservedNames w (World.classValue b)).contains name = true := by
  rw [List.contains_iff_mem]
  refine List.mem_append_left _ (List.mem_filter.mpr ⟨h, ?_⟩)
  rw [hn]
  rfl

theorem free?_reserved {reserved : List String} {key : String}
    (h : reserved.contains key = true) : D.free? reserved key = none := if_pos h

theorem ToolAttributes.own_none {reserved : List String} {text key : String}
    {own : String → Option Attribute} (h : ToolAttributes D p reserved text own)
    (hs : key ∉ ClassPlan.standing)
    (hk : key ∉ ["_name", "_description", "_parameters", "definition", "execute"])
    (hf : reserved.contains key = true ∨ D.helper? key = none) : own key = none := by
  rw [h.helpers key hs hk]
  rcases hf with hf | hf
  · rw [free?_reserved hf]
    rfl
  · have hfree : D.free? reserved key = none := by
      unfold Definition.free?
      rw [hf]
      split <;> rfl
    rw [hfree]
    rfl

theorem free?_ne_value (D : Definition Stored) (reserved : List String) (key : String) (x : Value) :
    D.free? reserved key ≠ some (.value x) := by
  unfold Definition.free?
  split
  · rintro ⟨⟩
  · intro he
    obtain ⟨⟨scope, s⟩, _, ha⟩ := Option.map_eq_some_iff.mp he
    cases scope <;> cases ha

end Machine

namespace World

variable {w : World} {b : ClassRef} {C : Nat → Prop}

def withTool (w : World) (s : Shelf) (cls : HostClass) : World :=
  ((w.withClass cls).withCell (.ofRows (objectRows s.rows))).setAttribute w.classes.length
    "_parameters" (.value (cellValue w.cells.length))

theorem FunctionBase.withTool {s : Shelf} {t : ParameterTable} (hbase : w.FunctionBase b s t C)
    (hd : w.HoldsData C) {cls : HostClass} (hl : cls.lineage = w.lineage b)
    (ho : cls.isOpen = !w.isOpen b) :
    w.Later (w.withTool s cls) (fun _ => False) ∧
      (w.withTool s cls).ClassAt w.classes.length cls.name b (fun key =>
        if "_parameters" = key then some (.value (cellValue w.cells.length))
        else Table.find? cls.attributes key) ∧
      (w.withTool s cls).Shelves ⟨w.cells.length, s.rows⟩ t C := by
  have hmade := w.later_withClass cls
  have hcell := hmade.newCell (.ofRows (objectRows s.rows))
  have hset := hcell.setAttribute (Nat.le_refl _) "_parameters" (.value (cellValue w.cells.length))
  have hcls := w.classAt_withClass cls hbase.rooted hl ho
  have hkept := ((Later.refl _ (fun _ => False)).newCell (.ofRows (objectRows s.rows))).classAt hcls
    (hmade.rooted hbase.rooted)
  have hshelf := hset.shelves hbase.shelf hd (fun _ _ => id) (fun _ _ => id)
  have hnew : (w.withTool s cls).cells[w.cells.length]? = some (.ofRows (objectRows s.rows)) :=
    getElem?_withCell (w.withClass cls) _
  have hlt {row : String × Nat × Nat} (hr : row ∈ s.rows) : row.2.2 < w.cells.length :=
    hbase.shelf.lt (List.mem_cons_of_mem _ (List.mem_map_of_mem hr))
  refine ⟨hset, hkept.set _ _, ?_⟩
  exact {
    cell := hnew
    rows := hshelf.rows
    names := hshelf.names
    cells := by
      intro hm
      obtain ⟨row, hr, he⟩ := List.mem_map.mp hm
      exact absurd (hlt hr) (he ▸ Nat.lt_irrefl _)
    apart := by
      intro k hk hc
      rcases List.mem_cons.mp hk with rfl | hk
      · exact absurd (hd.lt hc) (Nat.lt_irrefl _)
      · exact hbase.shelf.apart k (List.mem_cons_of_mem _ hk) hc
    values := hshelf.values }

end World

namespace Machine

variable {w v : World} {p : Draft} {D : Definition Stored} {C : Nat → Prop}

theorem of_buildTool (k : Nat) {b : ClassRef} {s : Shelf} {t : ParameterTable}
    (hbase : w.FunctionBase b s t C) (hb : w.Bundled) (hd : w.HoldsData C) {name : String}
    {attributes : List (String × Attribute)}
    (hs : ∀ x, Table.find? (Table.ofRows attributes) "__slots__" ≠ some (.value x))
    (hq : ∀ x, Table.find? (Table.ofRows attributes) "__qualname__" ≠ some (.value x))
    (hp : Table.find? (builtClass w name b attributes).attributes "_parameters" = none)
    {x : Except Fault Nat}
    (hr : ((nested (k + 2)).buildClass name b attributes).exec w = (x, v)) :
    (v = w ∧ (∀ n, x ≠ .ok n) ∧ Hosted x) ∨
      x = .ok w.classes.length ∧ v = w.withTool s (builtClass w name b attributes) := by
  rcases exec_buildPlain (nested (k + 2)) hs hq with ⟨f, hf, hosted⟩ | hbuild
  · cases hf.symm.trans hr
    exact .inl ⟨rfl, (fun _ h => by cases h), hosted⟩
  · rw [exec_tellAbove k hbase hb hd rfl rfl hp] at hbuild
    cases hbuild.symm.trans hr
    exact .inr ⟨rfl, rfl⟩

/-- A class that was made takes the name, the description and the parameters of a definition. -/
def furnish (m : Machine) (definition : Value) (n : Nat) : Run Value := do
  m.publish (World.classValue (.made n)) definition (m.nameText definition)
  m.declareAll (World.classValue (.made n)) (← m.iterate (← m.ask definition "params"))
  m.noteTool definition (World.classValue (.made n))

/-- What a definition is to be adapted to is made as a class with its free helpers, whatever stands
above it, once there were warnings of the others; or nothing but warnings were left. -/
theorem adaptLlm_reaches (k : Nat) (h : w.Declares p D C) {b : ClassRef} {base : Value}
    (hreq : (requireHost llmHost base "LLM tool host" "tool_forge.hosts.llm").exec w =
      (.ok (World.classValue b), w)) {x : Except Fault Value}
    (hr : ((nested (k + 3)).adaptLlm p.value base).exec w = (x, v)) :
    (w.Noted v ∧ Hosted x ∧ ∀ cls, x ≠ .ok cls) ∨ ∃ warned u text,
      collisionWarnings w D.name (collisions (Table.keys D.merged)
        (reservedNames w (World.classValue b))) = .ok warned ∧
      u = { w with log := w.log ++ warned } ∧
      w.textOf D.name = .ok text ∧ u.textOf D.name = .ok text ∧ Run.exec (do
        let n ← (nested (k + 3)).buildClass (Naming.className text "") b (withAttributes
          (D.freeRows (reservedNames w (World.classValue b))) (fixedRows D.description p))
        (nested (k + 3)).furnish p.value n) u = (x, v) := by
  unfold adaptLlm at hr
  rw [Run.exec_bind, hreq] at hr
  dsimp only at hr
  rw [Run.exec_bind, Run.exec_world] at hr
  dsimp only at hr
  rcases Run.exec_bind_cases hr with ⟨f, rfl, hfree⟩ | ⟨helpers, u, hfree, hr⟩
  · obtain ⟨hnoted, hosted, -⟩ := of_freeHelpers h hfree
    exact .inl ⟨hnoted, hosted.error, fun _ h => by cases h⟩
  obtain ⟨hnoted, -, hattrs⟩ := of_freeHelpers h hfree
  replace hattrs := hattrs helpers rfl
  obtain ⟨warned, hwarned, hlogged⟩ := warned_freeHelpers h hfree
  have hl := hnoted.later (fun _ => False)
  have hu := (h.unchanged hl).declares
  have hsame : u.textOf D.name = w.textOf D.name :=
    (hl.retains h.data fun _ _ => id).textOf h.data (h.values _ List.mem_cons_self).1
  rw [Run.exec_bind, exec_sendDescription (k + 2) hu.toDrafts hu.bundled] at hr
  dsimp only at hr
  rw [Run.exec_bind, exec_nameText _ hu] at hr
  cases htext : u.textOf D.name with
  | error f =>
    rw [htext] at hr
    cases hr
    exact .inl ⟨hnoted, (World.hosted_textOf _ _).of_eq htext, fun _ h => by cases h⟩
  | ok text =>
  rw [htext] at hr
  dsimp only at hr
  rw [Run.exec_bind, show (asClass (World.classValue b)).exec u = (.ok b, u) from rfl] at hr
  dsimp only at hr
  rw [hattrs] at hr
  exact .inr ⟨warned, u, text, hwarned, hlogged, hsame ▸ htext, htext, hr⟩

/-- The class that is made of a definition, below a class of a function-calling host. -/
def toolClass (w : World) (b : ClassRef) (text : String) (p : Draft) (D : Definition Stored) :
    HostClass :=
  builtClass w (Naming.className text "") b
    (withAttributes (D.freeRows (reservedNames w (World.classValue b))) (fixedRows D.description p))

theorem find?_toolClass (h : w.Declares p D C) (b : ClassRef) (text : String) {key : String}
    (hk : key ∉ ClassPlan.standing) : Table.find? (toolClass w b text p D).attributes key =
      ((Table.find? (fixedRows D.description p) key).or
        (D.free? (reservedNames w (World.classValue b)) key)).map
          fun a => (ClassPlan.settle (key, a)).2 :=
  find?_functionClass w b _ p D.description _ h.instanceNames h.classNames key hk

theorem find?_toolClass_told (h : w.Declares p D C) (b : ClassRef) (text : String) {key : String}
    {a : Attribute} (ha : Table.find? (fixedRows D.description p) key = some a)
    (hk : key ∈ ["__module__", "__doc__"]) :
    Table.find? (toolClass w b text p D).attributes key = some a :=
  find?_builtClass_told hk (by
    rw [find?_functionAttributes p D.description _ h.instanceNames h.classNames, ha]
    rfl)

theorem toolClass_leaves (h : w.Declares p D C) {b : ClassRef} (text : String) {key : String}
    (hk : key ∉ ["definition", "execute"]) (hp : key.startsWith "__" = false)
    (hs : key ∉ ClassPlan.standing) (hm : key ∈ w.attributeNames b) :
    Table.find? (toolClass w b text p D).attributes key = none := by
  have hfixed : key ∉ Table.keys (fixedRows D.description p) := by
    simp only [ClassPlan.standing, List.mem_cons, List.not_mem_nil, or_false, not_or] at hk hs
    simp [Table.keys, fixedRows, hk, hs]
  rw [find?_toolClass h b text hs, free?_reserved (mem_reservedNames hp hm),
    Table.find?_eq_none hfixed]
  rfl

end Machine

/-- A world in which a class that was made has taken over what a definition declared. -/
def World.withFurnished (w : World) (s : Shelf) (cls : HostClass) (text : String)
    (description : Value) (params : List Parameter) : World :=
  ((w.withTool s cls).publishAs w.classes.length text description).withParameters
    ⟨w.cells.length, s.rows⟩ params

theorem World.withParameters_log (w : World) (log : List Record) (s : Shelf)
    (params : List Parameter) : World.withParameters { w with log } s params =
      { w.withParameters s params with log } := by
  induction params generalizing w s with
  | nil => rfl
  | cons p params ih => exact ih (w.withParameter s p) _

theorem World.withFurnished_log (w : World) (log : List Record) (s : Shelf) (cls : HostClass)
    (text : String) (description : Value) (params : List Parameter) :
    World.withFurnished { w with log } s cls text description params =
      { w.withFurnished s cls text description params with log } := by
  have published : World.publishAs (World.withTool { w with log } s cls) w.classes.length text
      description =
        { (w.withTool s cls).publishAs w.classes.length text description with log } := by
    cases description <;> rfl
  have logged := withParameters_log ((w.withTool s cls).publishAs w.classes.length text description) log
    ⟨w.cells.length, s.rows⟩ params
  rw [← published] at logged
  exact logged

namespace Machine

variable {w v : World} {p : Draft} {D : Definition Stored} {C : Nat → Prop}

/-- A class that was made takes over what the definition declared. Where that fails, nothing has changed
that was there before; it does not fail where all names have texts. -/
theorem furnish_cases (k : Nat) (h : w.Declares p D C) {b : ClassRef} {s : Shelf} {t : ParameterTable}
    (hbase : w.FunctionBase b s t C) {text : String} (htext : w.textOf D.name = .ok text)
    {x : Except Fault Value}
    (hr : ((nested (k + 3)).furnish p.value w.classes.length).exec
      (w.withTool s (toolClass w b text p D)) = (x, v)) :
    w.Later v (fun _ => False) ∧ Hosted x ∧
      (∀ names, w.textsOf D.params = .ok names → ∃ cls, x = .ok cls) ∧
      ∀ cls, x = .ok cls → ∃ names rows own,
      cls = World.classValue (.made w.classes.length) ∧ w.textsOf D.params = .ok names ∧
      v = { w.withFurnished s (toolClass w b text p D) text D.description
        (List.zipWith takenOver D.params names) with log := v.log } ∧
      v.ClassAt w.classes.length (Naming.className text "") b own ∧
      ToolAttributes D p (reservedNames w (World.classValue b)) text own ∧
      Furnished v w.classes.length ⟨w.cells.length, rows⟩
        (declaredTable (D.params.zip names) t) C ∧
      (∀ row ∈ rows, row ∈ s.rows ∨ w.cells.length ≤ row.2.2) ∧ warnings v.log = warnings w.log := by
  have hfind {key : String} (hk : key ∉ ClassPlan.standing) := find?_toolClass h b text hk
  obtain ⟨hlater, hcls, hshelf⟩ := hbase.withTool h.data
    (show (toolClass w b text p D).lineage = _ from rfl) rfl
  have hquiet : (w.withTool s (toolClass w b text p D)).log = w.log := rfl
  have hworld (params : List Parameter) :
      w.withFurnished s (toolClass w b text p D) text D.description params =
        ((w.withTool s (toolClass w b text p D)).publishAs w.classes.length text
          D.description).withParameters ⟨w.cells.length, s.rows⟩ params := rfl
  generalize w.withTool s (toolClass w b text p D) = u₁ at *
  have hplain : ∀ row ∈ functionMethods, row.1 ∉ ["definition", "execute"] ∧
      row.1.startsWith "__" = false ∧ row.1 ∉ ClassPlan.standing ∧ "_parameters" ≠ row.1 := by
    decide +kernel
  have hmethods : ∀ row ∈ functionMethods, (if "_parameters" = row.1 then
      some (Attribute.value (cellValue w.cells.length)) else
        Table.find? (toolClass w b text p D).attributes row.1) = none := by
    intro row hrow
    obtain ⟨hk, hp, hs, hne⟩ := hplain row hrow
    obtain ⟨holder, hf⟩ := hbase.finds row hrow
    rw [if_neg hne, toolClass_leaves h text hk hp hs (World.mem_attributeNames hf)]
  have hdescription : Table.find? (toolClass w b text p D).attributes "_description" = none :=
    toolClass_leaves h text (by decide) (by decide +kernel) (by decide) (hbase.fields _ (by simp))
  have htext₁ : ((nested (k + 3)).nameText p.value).exec u₁ = (.ok text, u₁) := by
    rw [exec_nameText _ (h.unchanged hlater).declares,
      (hlater.retains h.data fun _ _ => id).textOf h.data (h.values _ List.mem_cons_self).1, htext]
  obtain ⟨u₃, own, hpublished, hu₃, hl₃, hcls₃, hname₃, hdesc₃, hrest₃⟩ :=
    exec_publish (k + 2) .functionName h hlater (Nat.le_refl _) hcls hbase.toHasMethods hmethods
      (by decide) hdescription (by decide) (by decide) (by decide) htext₁
  obtain ⟨classes, hclasses⟩ : ∃ classes, u₃ = { u₁ with classes } :=
    hu₃ ▸ World.publishAs_classes _ _ _ _
  unfold furnish at hr
  rw [Run.exec_bind, hpublished] at hr
  dsimp only at hr
  have hd₃ := (h.unchanged hl₃).declares
  rw [Run.exec_bind, exec_askParams _ hd₃.toDrafts hd₃.bundled] at hr
  dsimp only at hr
  have hparams : ((nested (k + 3)).iterate (cellValue p.params)).exec u₃ = _ :=
    exec_iterate _ hd₃.params
  rw [Run.exec_bind, hparams] at hr
  dsimp only at hr
  have hshelf₃ : u₃.Shelves ⟨w.cells.length, s.rows⟩ t C := by
    rw [hclasses]
    exact hshelf.withClasses classes
  have hcovers : D.Covers (reservedNames w (World.classValue b)) (Table.find? (toolClass w b text p D).attributes) :=
    Definition.covers_builtClass (by simp [fixedRows])
  have hapart : ∀ row ∈ functionMethods, row.1 ∉ ["_name", "_description"] := by decide
  have hfurnished : Furnished u₃ w.classes.length ⟨w.cells.length, s.rows⟩ t C :=
    { methods := hcls₃.hasMethods (hl₃.hasMethods hbase.toHasMethods) fun row hrow =>
        (hrest₃ row.1 (hapart row hrow)).trans (hmethods row hrow)
      parameters := hcls₃.find?_own ((hrest₃ "_parameters" (by decide)).trans (if_pos rfl))
      shelf := hshelf₃ }
  have hplaces : ∀ place ∈ p.specs, place.2 ≠ w.cells.length := by
    intro place hp
    refine Nat.ne_of_lt (h.lt ?_)
    simp only [Draft.cells, List.mem_cons, List.mem_map]
    exact .inr (.inr (.inr (.inr (.inr ⟨place, hp, rfl⟩))))
  have hvalues : ∀ spec ∈ D.params, ∀ x ∈ spec.values, x.Within (u₃.data C) ∧ x.IsShared := by
    intro spec hs x hx
    refine hd₃.values x (List.mem_cons_of_mem _ (List.mem_cons_of_mem _ ?_))
    exact List.mem_flatMap.mpr ⟨spec, hs, hx⟩
  have hnames' : ∀ spec ∈ D.params, spec.name.Within (w.data C) := by
    intro spec hs
    refine (h.values _ (List.mem_cons_of_mem _ (List.mem_cons_of_mem _ ?_))).1
    exact List.mem_flatMap.mpr ⟨spec, hs, List.mem_cons_self⟩
  have htexts : u₃.textsOf D.params = w.textsOf D.params :=
    (hl₃.retains h.data fun _ _ => id).textsOf h.data hnames'
  have declared {x : Except Fault PUnit} {u₄ : World}
      (hr : (declareAll (nested (k + 3)) (World.classValue (.made w.classes.length))
        (p.specs.map fun s => objectValue s.1)).exec u₃ = (x, u₄)) :=
    of_declareAll k hd₃.bundled hd₃.data hfurnished hd₃.specs hplaces hvalues hr
  have kept {u₄ : World} (hl₄ : u₃.Later u₄ (· = w.cells.length)) :
      w.Later u₄ (fun _ => False) :=
    hl₃.trans hl₄ fun n hn hlt => absurd hlt (by rw [hn]; exact Nat.lt_irrefl _)
  rcases Run.exec_bind_cases hr with ⟨f, rfl, hdeclared⟩ | ⟨_, u₄, hdeclared, hr⟩
  · obtain ⟨hl₄, hosted, -, htold, -⟩ := declared hdeclared
    refine ⟨kept hl₄, hosted.error, fun names hnames => ?_, fun _ h => by cases h⟩
    cases htold names (htexts.trans hnames)
  obtain ⟨hl₄, -, hlog₄, -, hdone⟩ := declared hdeclared
  obtain ⟨names, rows, hnames, hu₄, hf₄, hrows⟩ := hdone _ rfl
  have hl₄' := kept hl₄
  have hd₄ := (h.unchanged hl₄').declares
  obtain ⟨hlast, hosted, hquiet', hsame⟩ := of_noteTool hd₄ hr
  have hl₅ : u₄.Later v (fun _ => False) := hlast.later _
  have hroot : u₃.Rooted b := hl₃.rooted hbase.rooted
  refine ⟨hl₄'.trans hl₅ fun _ hn _ => hn, hosted, fun _ _ => ?_, fun cls hcls => ?_⟩
  · rcases exec_noteTool hd₄ (World.classValue (.made w.classes.length)) (m := nested (k + 3)) with
      ⟨log, -, hdone⟩ | ⟨f, hf, -⟩
    · exact ⟨_, congrArg Prod.fst (hr.symm.trans hdone)⟩
    · rw [(hl₄'.retains h.data fun _ _ => id).textOf h.data (h.values _ List.mem_cons_self).1, htext]
        at hf
      cases hf
  obtain rfl := hsame cls hcls
  obtain ⟨log, rfl⟩ := hlast
  refine ⟨names, rows, own, rfl, htexts ▸ hnames, ?_, ?_, ?_, ?_, ?_, ?_⟩
  · rw [hworld, ← hu₃, ← hu₄]
  · exact hl₅.classAt (hl₄.classAt hcls₃ hroot) (hl₄.rooted hroot)
  · exact {
      name := hname₃
      description := hdesc₃
      definition := by
        rw [hrest₃ _ (by decide), if_neg (by decide), hfind (by decide)]
        rfl
      execute := by
        rw [hrest₃ _ (by decide), if_neg (by decide), hfind (by decide)]
        rfl
      module := by
        rw [hrest₃ _ (by decide), if_neg (by decide), find?_toolClass_told h b text rfl (by decide)]
      doc := by
        rw [hrest₃ _ (by decide), if_neg (by decide), find?_toolClass_told h b text rfl (by decide)]
      helpers := by
        intro key hstanding hkey
        have hfixed : key ∉ Table.keys (fixedRows D.description p) := by
          simp only [ClassPlan.standing, List.mem_cons, List.not_mem_nil, or_false, not_or]
            at hkey hstanding
          simp [Table.keys, fixedRows, hkey, hstanding]
        have hset : key ∉ ["_name", "_description"] ∧ "_parameters" ≠ key := by
          simp only [List.mem_cons, List.not_mem_nil, or_false, not_or] at hkey ⊢
          exact ⟨⟨hkey.1, hkey.2.1⟩, Ne.symm hkey.2.2.1⟩
        rw [hrest₃ _ hset.1, if_neg hset.2, hfind hstanding, Table.find?_eq_none hfixed]
        rfl
      covers := hcovers.set fun key hkey => by
        by_cases hset : key ∈ ["_name", "_description"]
        · simp only [List.mem_cons, List.not_mem_nil, or_false] at hset
          rcases hset with rfl | rfl
          · exact absurd hname₃ (hkey _)
          · exact .inl (hdesc₃.resolve_left (hkey _)).1
        · rw [hrest₃ key hset] at hkey ⊢
          split at hkey
          · exact absurd rfl (hkey _)
          · rw [if_neg ‹_›]
            exact .inr rfl }
  · exact {
      methods := hl₅.hasMethods hf₄.methods
      parameters := (hl₅.find? hf₄.methods.rooted _).trans hf₄.parameters
      shelf := hl₅.shelves hf₄.shelf hd₄.data (fun _ _ => id) (fun _ _ => id) }
  · intro row hrow
    exact (hrows row hrow).imp_right fun hle => Nat.le_trans hl₃.cells_le hle
  · rw [hquiet', hlog₄, hclasses]
    exact congrArg warnings hquiet

theorem of_buildToolClass (k : Nat) (h : w.Declares p D C) {b : ClassRef} {s : Shelf}
    {t : ParameterTable} (hbase : w.FunctionBase b s t C) {text : String} {x : Except Fault Nat}
    (hr : ((nested (k + 3)).buildClass (Naming.className text "") b
      (withAttributes (D.freeRows (reservedNames w (World.classValue b)))
        (fixedRows D.description p))).exec w = (x, v)) :
    (v = w ∧ (∀ n, x ≠ .ok n) ∧ Hosted x) ∨
      x = .ok w.classes.length ∧ v = w.withTool s (toolClass w b text p D) := by
  have hattributes := find?_functionAttributes p D.description (reservedNames w (World.classValue b))
    h.instanceNames h.classNames
  exact of_buildTool (k + 1) hbase h.bundled h.data
    (fun x => by rw [hattributes]; exact free?_ne_value D _ "__slots__" x)
    (fun x => by rw [hattributes]; exact free?_ne_value D _ "__qualname__" x)
    (toolClass_leaves h text (by decide) (by decide +kernel) (by decide) (hbase.fields _ (by simp))) hr

/-- A definition that is adapted becomes a new class, which has taken over what the definition
declared. Where that fails, nothing has changed that was there before. -/
theorem adaptLlm_cases (k : Nat) (h : w.Declares p D C) {b : ClassRef} {s : Shelf} {t : ParameterTable}
    (hbase : w.FunctionBase b s t C) {base : Value}
    (hreq : (requireHost llmHost base "LLM tool host" "tool_forge.hosts.llm").exec w =
      (.ok (World.classValue b), w)) {x : Except Fault Value}
    (hr : ((nested (k + 3)).adaptLlm p.value base).exec w = (x, v)) :
    w.Later v (fun _ => False) ∧ Hosted x ∧ ∀ cls, x = .ok cls → ∃ text names rows own,
      cls = World.classValue (.made w.classes.length) ∧
      w.textOf D.name = .ok text ∧ w.textsOf D.params = .ok names ∧
      v.ClassAt w.classes.length (Naming.className text "") b own ∧
      ToolAttributes D p (reservedNames w (World.classValue b)) text own ∧
      Furnished v w.classes.length ⟨w.cells.length, rows⟩
        (declaredTable (D.params.zip names) t) C ∧
      (∀ row ∈ rows, row ∈ s.rows ∨ w.cells.length ≤ row.2.2) ∧
      v = { w.withFurnished s (toolClass w b text p D) text D.description
        (List.zipWith takenOver D.params names) with log := v.log } ∧
      ∃ warned, collisionWarnings w D.name (collisions (Table.keys D.merged)
          (reservedNames w (World.classValue b))) = .ok warned ∧
        warnings v.log = warnings (w.log ++ warned) := by
  rcases adaptLlm_reaches k h hreq hr with
    ⟨hnoted, hosted, hno⟩ | ⟨warned, u, text, hwarned, rfl, htextw, htext, hr⟩
  · exact ⟨hnoted.later _, hosted, fun cls hcls => absurd hcls (hno cls)⟩
  have hl := (World.Later.refl w fun _ => False).log (w.log ++ warned)
  have hu := (h.unchanged hl).declares
  have hbaseu := hl.functionBase hbase h.data (fun _ _ => id) (fun _ _ => id)
  rcases Run.exec_bind_cases hr with ⟨f, rfl, hbuild⟩ | ⟨n, u₁, hbuild, hr⟩
  · rcases of_buildToolClass k hu hbaseu hbuild with ⟨rfl, -, hosted⟩ | ⟨⟨⟩, -⟩
    exact ⟨hl, hosted.error, fun _ h => by cases h⟩
  obtain ⟨-, hnone, -⟩ | ⟨⟨⟩, rfl⟩ := of_buildToolClass k hu hbaseu hbuild
  · exact absurd rfl (hnone n)
  obtain ⟨hlast, hosted, -, hdone⟩ := furnish_cases k hu hbaseu htext hr
  refine ⟨hl.trans hlast fun _ hn _ => hn, hosted, fun cls hcls => ?_⟩
  obtain ⟨names, rows, own, hcls, hnames, hv, hclass, hown, hfurnished, hrows, hquiet⟩ := hdone cls hcls
  rw [World.withFurnished_log] at hv
  exact ⟨text, names, rows, own, hcls, htextw, hnames, hclass, hown, hfurnished, hrows, hv, warned,
    hwarned, hquiet⟩

/-- A definition that was adapted is a new class, which has taken over what the definition declared.
-/
theorem of_adaptLlm (k : Nat) (h : w.Declares p D C) {b : ClassRef} {s : Shelf} {t : ParameterTable}
    (hbase : w.FunctionBase b s t C) {base cls : Value}
    (hreq : (requireHost llmHost base "LLM tool host" "tool_forge.hosts.llm").exec w =
      (.ok (World.classValue b), w))
    (hr : ((nested (k + 3)).adaptLlm p.value base).exec w = (.ok cls, v)) :
    ∃ text names rows own, cls = World.classValue (.made w.classes.length) ∧
      w.textOf D.name = .ok text ∧ w.textsOf D.params = .ok names ∧
      w.Later v (fun _ => False) ∧
      v.ClassAt w.classes.length (Naming.className text "") b own ∧
      ToolAttributes D p (reservedNames w (World.classValue b)) text own ∧
      Furnished v w.classes.length ⟨w.cells.length, rows⟩
        (declaredTable (D.params.zip names) t) C ∧
      ∀ row ∈ rows, row ∈ s.rows ∨ w.cells.length ≤ row.2.2 := by
  obtain ⟨hl, -, hdone⟩ := adaptLlm_cases k h hbase hreq hr
  obtain ⟨text, names, rows, own, hcls, htext, htexts, hclass, hattributes, hfurnished, hrows, -⟩ :=
    hdone cls rfl
  exact ⟨text, names, rows, own, hcls, htext, htexts, hl, hclass, hattributes, hfurnished, hrows⟩

theorem warned_adaptLlm (k : Nat) (h : w.Declares p D C) {b : ClassRef} {s : Shelf} {t : ParameterTable}
    (hbase : w.FunctionBase b s t C) {base cls : Value}
    (hreq : (requireHost llmHost base "LLM tool host" "tool_forge.hosts.llm").exec w =
      (.ok (World.classValue b), w))
    (hr : ((nested (k + 3)).adaptLlm p.value base).exec w = (.ok cls, v)) :
    ∃ warned, collisionWarnings w D.name (collisions (Table.keys D.merged)
        (reservedNames w (World.classValue b))) = .ok warned ∧
      warnings v.log = warnings (w.log ++ warned) := by
  obtain ⟨-, -, hdone⟩ := adaptLlm_cases k h hbase hreq hr
  obtain ⟨_, _, _, _, _, _, _, _, _, _, _, _, hwarned⟩ := hdone cls rfl
  exact hwarned

end Machine

end Toolwright
