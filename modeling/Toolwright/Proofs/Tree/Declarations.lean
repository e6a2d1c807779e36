import Toolwright.Proofs.Tree.Ledger
/-!
# Declarations on classes
A name, a description or a parameter that is declared on a class is declared on that class and on no
other one. A declaration that fails leaves nothing but data.
-/

namespace Toolwright

set_option autoImplicit false

/-! ## Arguments -/

theorem of_bindParams {Q : Value → Prop} {named : Named} {params : List (String × Option Value)}
    {args : List Value} {vars : Named} (h : bindParams named params args = .ok vars)
    (ha : ∀ x ∈ args, Q x) (hn : ∀ row ∈ named, Q row.2)
    (hd : ∀ p ∈ params, ∀ x, p.2 = some x → Q x) : ∀ row ∈ vars, Q row.2 := by
  fun_induction bindParams named params args generalizing vars with
  | case1 =>
    cases h
    exact fun row hr => absurd hr List.not_mem_nil
  | case2 => cases h
  | case3 => cases h
  | case4 name _ params arg args _ ih =>
    cases hb : bindParams named params args with
    | error f =>
      rw [hb] at h
      cases h
    | ok rest =>
      rw [hb] at h
      cases h
      refine List.forall_mem_cons.mpr ⟨ha arg List.mem_cons_self, ?_⟩
      exact ih hb (fun x hx => ha x (List.mem_cons_of_mem _ hx))
        (fun p hp => hd p (List.mem_cons_of_mem _ hp))
  | case5 name default params v hv ih =>
    cases hb : bindParams named params [] with
    | error f =>
      rw [hb] at h
      cases h
    | ok rest =>
      rw [hb] at h
      cases h
      refine List.forall_mem_cons.mpr ⟨hn _ (Table.mem_of_find? hv), ?_⟩
      exact ih hb ha (fun p hp => hd p (List.mem_cons_of_mem _ hp))
  | case6 name params v _ ih =>
    cases hb : bindParams named params [] with
    | error f =>
      rw [hb] at h
      cases h
    | ok rest =>
      rw [hb] at h
      cases h
      refine List.forall_mem_cons.mpr ⟨hd _ List.mem_cons_self v rfl, ?_⟩
      exact ih hb ha (fun p hp => hd p (List.mem_cons_of_mem _ hp))
  | case7 => cases h

theorem of_bindAll {Q : Value → Prop} {named : Named} {params : List (String × Option Value)}
    {args : List Value} {arg : String → Value} (h : bindAll params args named = .ok arg)
    (ha : ∀ x ∈ args, Q x) (hn : ∀ row ∈ named, Q row.2)
    (hd : ∀ p ∈ params, ∀ x, p.2 = some x → Q x) (hnull : Q .null) (key : String) :
    Q (arg key) := by
  unfold bindAll at h
  cases hb : bindParams named params args with
  | error f =>
    rw [hb] at h
    cases h
  | ok vars =>
    rw [hb] at h
    have hrows := of_bindParams hb ha hn hd
    replace h : (if (leftover params named).isEmpty then
      Except.ok fun name => (Table.find? vars name).getD Value.null else .error Fault.mismatch) =
        Except.ok arg := h
    split at h
    · cases h
      show Q ((Table.find? vars key).getD .null)
      cases hk : Table.find? vars key with
      | none => exact hnull
      | some x => exact hrows _ (Table.mem_of_find? hk)
    · cases h

namespace World

variable {w v u : World} {n : Nat} {key : String} {C : Nat → Prop}

theorem HoldsData.written (hd : w.HoldsData C) {args : List Literal} {named : Literal.Rows}
    {xs : List Value} {rows : Named} (hxs : (Run.literals args).exec w = (.ok xs, v))
    (hrows : (Run.literalRows named).exec v = (.ok rows, u)) :
    w.Gains C u ∧ (∀ x ∈ xs, x.Within (u.data (w.gained C u)) ∧ x.IsShared) ∧
      ∀ row ∈ rows, row.2.Within (u.data (w.gained C u)) ∧ row.2.IsShared := by
  have hv : w.Gains C v := by
    have := hd.gains (Q := Link.RenamedItems) fun L e => Link.literals_agree args
    rwa [hxs] at this
  have hu : v.Gains (w.gained C v) u := by
    have := hv.data.gains (Q := Link.RenamedNamed) fun L e => Link.literalRows_agree named
    rwa [hrows] at this
  obtain ⟨hg, hbelow⟩ := hv.trans hu
  refine ⟨hg, fun x hm => ?_, fun row hm => ?_⟩
  · have hin := hd.literals hxs x hm
    exact ⟨(hin.1.mono (hu.below hv.data)).mono hbelow, hin.2⟩
  · have hin := (hv.data.literalRows hrows).1 row hm
    exact ⟨hin.1.mono hbelow, hin.2⟩

/-! ## Names and descriptions -/

variable {name description x : Value} {card : FunctionCard} {served : ServingCard} {s : Shelf}
  {cell : Option Nat}

theorem Titled.isHost (h : w.Titled n name description C) : w.IsHost n := by
  obtain ⟨k, f, -, hf⟩ := h.tellsName
  exact ⟨_, f, hf⟩

theorem own?_set (hn : w.Rooted (.made n)) (key : String) (a : Attribute) (key' : String) :
    (w.setAttribute n key a).own? (.made n) key' =
      if key = key' then some a else w.own? (.made n) key' := by
  obtain ⟨cls, hcls⟩ := hn n List.mem_cons_self
  simp [World.own?, setAttribute, modifyClass, hcls, Table.find?_insert]

theorem Titled.declare (h : w.Titled n name description C) (hn : w.Rooted (.made n))
    (hk : key ∈ declaredNames) (hx : x.Within (w.data C)) :
    (w.setAttribute n key (.value x)).Titled n (if key = "_name" then x else name)
      (if key = "_description" then x else description) C := by
  have hm := moves_setAttribute h.isHost hk x fun _ => False
  have told {old : Value} {field : String} (ho : Describes (w.own? (.made n) field) old) :
      Describes ((w.setAttribute n key (.value x)).own? (.made n) field)
        (if key = field then x else old) := by
    rw [own?_set hn]
    split
    · exact .inl rfl
    · exact ho
  exact {
    tellsName := by
      rw [hm.leads.find? hn (by decide)]
      exact h.tellsName
    tellsDescription := by
      rw [hm.leads.find? hn (by decide)]
      exact h.tellsDescription
    ownName := told h.ownName
    ownDescription := told h.ownDescription
    data := by
      constructor
      · split
        · exact hx
        · exact h.data.1
      · split
        · exact hx
        · exact h.data.2 }

end World

/-- What was declared on a class, once a name or a description was declared. -/
def FunctionCard.declare (card : FunctionCard) (key : String) (x : Value) : FunctionCard where
  name := if key = "_name" then x else card.name
  description := if key = "_description" then x else card.description
  parameters := card.parameters

/-- What was declared on a class, once a parameter was declared: it stands in the place of the one of its
name, or behind all others. -/
def FunctionCard.withParameter (card : FunctionCard) (p : Parameter) : FunctionCard :=
  { card with parameters := Table.insert p.name p card.parameters }

def ServingCard.declare (card : ServingCard) (key : String) (x : Value) : ServingCard where
  name := if key = "_name" then x else card.name
  description := if key = "_description" then x else card.description
  schema := card.schema

def Account.declare (key : String) (x : Value) : Account → Account
  | .function card s => .function (card.declare key x) s
  | .serving card cell => .serving (card.declare key x) cell
  | .plain => .plain
  | .definition p D => .definition p D

namespace World

variable {w : World} {n : Nat} {key : String} {C : Nat → Prop} {x : Value} {card : FunctionCard}
  {served : ServingCard} {s : Shelf} {cell : Option Nat}

theorem FunctionHost.declare (h : w.FunctionHost n card s C) (hk : key ∈ declaredNames)
    (hx : x.Within (w.data C)) :
    (w.setAttribute n key (.value x)).FunctionHost n (card.declare key x) s C := by
  have hn := h.methods.rooted
  have hm := moves_setAttribute h.isHost hk x fun _ => False
  exact {
    toTitled := h.toTitled.declare hn hk hx
    methods := ⟨hm.leads.rooted hn, fun row hr => by
      have plain : ∀ row ∈ functionMethods, row.1 ∉ declaredNames := by decide
      rw [hm.leads.find? hn (plain row hr)]
      exact h.methods.finds row hr⟩
    parameters := by
      rw [hm.leads.find? hn (by decide)]
      exact h.parameters
    shelf := h.shelf.withClasses _ }

theorem FunctionClass.declare (h : w.FunctionClass n card s C) (hk : key ∈ declaredNames)
    (hx : x.Within (w.data C)) :
    (w.setAttribute n key (.value x)).FunctionClass n (card.declare key x) s C := by
  have hn := h.methods.rooted
  have hm := moves_setAttribute h.isHost hk x fun _ => False
  exact {
    toFunctionHost := h.toFunctionHost.declare hk hx
    told := by
      rw [hm.leads.find? hn (by decide)]
      exact h.told
    fields := fun name hf => hm.leads.attributeNames hn (h.fields name hf)
    opens := (hm.leads.isOpen hn).trans h.opens
    line := by
      rw [hm.leads.lineage hn]
      exact h.line }

theorem ServingHost.declare (h : w.ServingHost n served C) (hk : key ∈ ["_name", "_description"])
    (hx : x.Within (w.data C)) :
    (w.setAttribute n key (.value x)).ServingHost n (served.declare key x) C ∧
      ∀ k, (w.setAttribute n key (.value x)).HasSchemaCell n k → w.HasSchemaCell n k := by
  have hn := h.methods.rooted
  have hkey : key ∈ declaredNames ∧ key ≠ "_input_schema" := by
    revert key
    decide
  have hown : (w.setAttribute n key (.value x)).own? (.made n) "_input_schema" =
      w.own? (.made n) "_input_schema" := by
    rw [own?_set hn, if_neg hkey.2]
  refine ⟨h.retold (moves_setAttribute h.isHost hkey.1 x fun _ => False)
    (h.toTitled.declare hn hkey.1 hx) ?_, ?_⟩
  · rw [hown]
    have hs := h.schema
    show World.Schemed (w.setAttribute n key (.value x)) C _ served.schema
    generalize w.own? (.made n) "_input_schema" = a at hs
    generalize served.schema = fields at hs
    cases hs with
    | none => exact .none
    | null => exact .null
    | given hx hy hobj => exact .given hx hy ⟨hobj.object, hobj.cell⟩
  · rintro k ⟨o, ho, hobj⟩
    exact ⟨o, hown ▸ ho, hobj⟩

theorem ServingClass.declare (h : w.ServingClass n served cell C)
    (hk : key ∈ ["_name", "_description"]) (hx : x.Within (w.data C)) :
    (w.setAttribute n key (.value x)).ServingClass n (served.declare key x) cell C := by
  have hkey : key ∈ declaredNames := by
    revert key
    decide
  obtain ⟨hh, hcells⟩ := h.toServingHost.declare hk hx
  exact h.retold (moves_setAttribute h.isHost hkey x fun _ => False) hh
    (fun k hc => h.schemaCell k (hcells k hc)) h.cell_lt

end World

namespace Machine

variable {w v : World} {n : Nat} {name : String} {C : Nat → Prop}

/-- A method of a class that is called with arguments that are written runs on them once they are built
and bound. Where that fails, nothing but data was added. -/
theorem callMethod_cases (k : Nat) (hd : w.HoldsData C) (hp : Plain name) {method : HostMethod}
    (hm : method ∉ ofObjects)
    (hf : ∃ k, w.find? (.made n) name = some (k, .ofClass (.bundled (.host method))))
    {args : List Literal} {named : Literal.Rows} {x : Except Fault Value}
    (hr : ((nested (k + 1)).callAttribute (World.classValue (.made n)) name args named).exec w =
      (x, v)) :
    (∃ f, x = .error f ∧ w.Gains C v) ∨ ∃ u u₁ xs rows,
      (Run.literals args).exec w = (.ok xs, u₁) ∧ (Run.literalRows named).exec u₁ = (.ok rows, u) ∧
      ((nested k).applyClassMethod method (.made n) xs rows).exec u = (x, v) := by
  unfold callAttribute at hr
  rw [Run.exec_bind, exec_reachMethod _ hp hf] at hr
  dsimp only at hr
  have hargs := hd.gains (Q := Link.RenamedItems) fun L e => Link.literals_agree args
  rcases Run.exec_bind_cases hr with ⟨f, rfl, hxs⟩ | ⟨xs, u₁, hxs, hr⟩
  · rw [hxs] at hargs
    exact .inl ⟨f, rfl, hargs⟩
  rw [hxs] at hargs
  have hnamed := hargs.data.gains (Q := Link.RenamedNamed) fun L e => Link.literalRows_agree named
  rcases Run.exec_bind_cases hr with ⟨f, rfl, hrows⟩ | ⟨rows, u, hrows, hr⟩
  · rw [hrows] at hnamed
    exact .inl ⟨f, rfl, (hargs.trans hnamed).1⟩
  rw [use_classMethod k hm] at hr
  exact .inr ⟨u, u₁, xs, rows, hxs, hrows, hr⟩

/-! ## What a declaration does -/

variable {title description : Value} {card : FunctionCard} {s : Shelf} {xs : List Value}
  {rows : Named} {x : Except Fault Value}

/-- What is given is declared under a name; where nothing is given it is read what was declared. -/
theorem exec_declaration {key : String} (hp : Plain key) {read : Run Value}
    (hread : ∃ r, read.exec w = (r, w)) (given : Value) :
    (∃ r, (declaration (.made n) key read given).exec w = (r, w)) ∨
      (declaration (.made n) key read given).exec w =
        (.ok .null, w.setAttribute n key (.value given)) := by
  unfold declaration
  split
  · exact .inl hread
  · exact .inr (exec_declareOn hp _)

def titling : List HostMethod := [.functionName, .servedName, .description]

theorem of_titling (m : Machine) (hd : w.HoldsData C) (h : w.Titled n title description C)
    {method : HostMethod} (hm : method ∈ titling) (hxs : ∀ y ∈ xs, y.Within (w.data C))
    (hrows : ∀ row ∈ rows, row.2.Within (w.data C))
    (hr : (m.applyClassMethod method (.made n) xs rows).exec w = (x, v)) :
    v = w ∨ ∃ key ∈ ["_name", "_description"], ∃ y : Value, y.Within (w.data C) ∧
      v = w.setAttribute n key (.value y) := by
  have declared {field key : String} {read : Run Value} (hp : Plain key)
      (hk : key ∈ ["_name", "_description"]) (hread : ∃ r, read.exec w = (r, w))
      (hr : Run.exec (do
        let arg ← Run.lift (bindAll [(field, some .null)] xs rows)
        declaration (.made n) key read (arg field)) w = (x, v)) :
      v = w ∨ ∃ key ∈ ["_name", "_description"], ∃ y : Value, y.Within (w.data C) ∧
        v = w.setAttribute n key (.value y) := by
    rw [Run.exec_bind, Run.exec_lift] at hr
    cases hb : bindAll [(field, some Value.null)] xs rows with
    | error f =>
      rw [hb] at hr
      cases hr
      exact .inl rfl
    | ok arg =>
      rw [hb] at hr
      rcases exec_declaration hp hread (arg field) with ⟨r, he⟩ | he
      · cases he.symm.trans hr
        exact .inl rfl
      · cases he.symm.trans hr
        refine .inr ⟨key, hk, arg field, ?_, rfl⟩
        refine of_bindAll (Q := fun y => y.Within (w.data C)) hb hxs hrows ?_ trivial field
        intro p hp y hy
        rw [List.mem_singleton.mp hp] at hy
        cases hy
        trivial
  simp only [titling, List.mem_cons, List.not_mem_nil, or_false] at hm
  rcases hm with rfl | rfl | rfl
  · exact declared ⟨by decide, by decide⟩ (by decide) ⟨_, exec_toolNameOf m hd h.ownName h.data.1⟩ hr
  · exact declared ⟨by decide, by decide⟩ (by decide) ⟨_, exec_toolNameOf m hd h.ownName h.data.1⟩ hr
  · exact declared ⟨by decide, by decide⟩ (by decide) ⟨_, exec_ownValue h.ownDescription⟩ hr

theorem of_param (k : Nat) (h : w.FunctionHost n card s C) (hb : w.Bundled) (hd : w.HoldsData C)
    (hxs : ∀ y ∈ xs, y.Within (w.data C) ∧ y.IsShared)
    (hrows : ∀ row ∈ rows, row.2.Within (w.data C) ∧ row.2.IsShared)
    (hr : ((nested (k + 2)).applyClassMethod .param (.made n) xs rows).exec w = (x, v)) :
    (v = w ∧ ∃ f, x = .error f) ∨ ∃ arg text rows', x = .ok .null ∧
      bindAll HostMethod.param.signature.takes xs rows = .ok arg ∧
      w.textOf (arg "name") = .ok text ∧ w.Later v (· = s.cell) ∧
      v.Shelves ⟨s.cell, rows'⟩ (Table.insert text
        ⟨text, arg "type", arg "desc", arg "required"⟩ card.parameters) C ∧
      ∀ row ∈ rows', row ∈ s.rows ∨ w.cells.length ≤ row.2.2 := by
  replace hr : Run.exec (do
      let arg ← Run.lift (bindAll HostMethod.param.signature.takes xs rows)
      (nested (k + 2)).declareParameter (.made n) (arg "name") (arg "type") (arg "desc")
        (arg "required")) w = (x, v) := hr
  rw [Run.exec_bind, Run.exec_lift] at hr
  cases hbind : bindAll HostMethod.param.signature.takes xs rows with
  | error f =>
    rw [hbind] at hr
    cases hr
    exact .inl ⟨rfl, f, rfl⟩
  | ok arg =>
    rw [hbind] at hr
    dsimp only at hr
    have hdefaults : ∀ p ∈ HostMethod.param.signature.takes, ∀ y, p.2 = some y →
        y.Within (w.data C) ∧ y.IsShared := by
      intro p hp y hy
      have plain : y ∈ [.str "string", .null, .bool true] := by
        simp only [HostMethod.signature, Signature.takes, List.map_cons, List.map_nil,
          Formal.optional, List.mem_cons, List.not_mem_nil, or_false] at hp
        rcases hp with rfl | rfl | rfl | rfl <;> simp_all
      simp only [List.mem_cons, List.not_mem_nil, or_false] at plain
      rcases plain with rfl | rfl | rfl <;> exact ⟨trivial, rfl⟩
    have hin (key : String) := of_bindAll (Q := fun y => y.Within (w.data C) ∧ y.IsShared) hbind hxs
      hrows hdefaults ⟨trivial, rfl⟩ key
    cases ht : w.textOf (arg "name") with
    | error f =>
      unfold declareParameter at hr
      rw [Run.exec_bind, exec_text _ hd (hin "name").1, ht] at hr
      cases hr
      exact .inl ⟨rfl, f, rfl⟩
    | ok text =>
      obtain ⟨he, hl, hs, hnew⟩ := exec_declareParameter (p := ⟨text, _, _, _⟩) k h.shelf hb hd
        h.parameters (hin "name").1 ht (by
          intro y hy
          simp only [List.mem_cons, List.not_mem_nil, or_false] at hy
          rcases hy with rfl | rfl | rfl
          · exact hin "type"
          · exact hin "desc"
          · exact hin "required")
      cases he.symm.trans hr
      exact .inr ⟨arg, text, _, rfl, rfl, ht, hl, hs, hnew⟩

end Machine

end Toolwright
