import Toolwright.Proofs.Tree.Moves
/-!
# What a session keeps account of
A session that makes classes of hosts, declares things on them and adapts definitions to them keeps
account of what was declared on each class and of each definition. Each of them stands on cells of its
own, so a step that changes one leaves all others as they are.
-/

namespace Toolwright

set_option autoImplicit false

/-- What a step can change: what was declared on a class or of the definition that a name stands for, or
which class stands for a host. -/
inductive Owner where
  | cls (n : Nat)
  | definition (id : String)
  | host (kind : String)
deriving DecidableEq

/-- What is known of a class or of a definition: what was declared, and where it is kept. Nothing is
declared on a class of no host. -/
inductive Account where
  | function (card : FunctionCard) (s : Shelf)
  | serving (card : ServingCard) (cell : Option Nat)
  | plain
  | definition (p : Draft) (D : Definition Stored)

def Account.cells : Account → Nat → Prop
  | .function _ s, k => k ∈ s.cells
  | .serving _ cell, k => cell = some k
  | .plain, _ => False
  | .definition p _, k => k ∈ p.cells

def Account.changes : Account → Nat → Prop
  | .function _ s, k => k = s.cell
  | .serving _ _, _ => False
  | .plain, _ => False
  | .definition p _, k => p.changes k

theorem Draft.changes_cells {p : Draft} {k : Nat} (h : p.changes k) : k ∈ p.cells := by
  simp only [changes] at h
  simp only [cells, List.mem_cons]
  omega

theorem Account.changes_cells {a : Account} {k : Nat} (h : a.changes k) : a.cells k := by
  cases a with
  | function card s => exact List.mem_cons.mpr (.inl h)
  | serving card cell => exact h.elim
  | plain => exact h.elim
  | definition p D => exact Draft.changes_cells h

def Ledger := Owner → Option Account

namespace Ledger

def enter (l : Ledger) (r : Owner) (a : Account) : Ledger :=
  fun r' => if r' = r then some a else l r'

/-- A cell that an owner may stand on: it stood on it, or another one does that does not change it. -/
def Allows (l : Ledger) (r : Owner) (k : Nat) : Prop :=
  (∃ b, l r = some b ∧ b.cells k) ∨ ∃ r' b, l r' = some b ∧ b.cells k ∧ ¬ b.changes k

@[simp] theorem enter_self (l : Ledger) (r : Owner) (a : Account) : l.enter r a r = some a :=
  if_pos rfl

theorem enter_of_ne {l : Ledger} {r r' : Owner} (h : r' ≠ r) (a : Account) :
    l.enter r a r' = l r' :=
  if_neg h

theorem enter_eq_self {l : Ledger} {r : Owner} {a : Account} (h : l r = some a) :
    l.enter r a = l := by
  funext r'
  by_cases hr : r' = r
  · rw [hr, enter_self, h]
  · exact enter_of_ne hr a

end Ledger

namespace World

variable {w v : World} {n : Nat} {C C' own A : Nat → Prop} {s : Shelf} {card : FunctionCard}
  {served : ServingCard} {cell : Option Nat} {p : Draft} {D : Definition Stored} {k : Nat}

/-! ## Hosts with classes below them -/

/-- A class of a function-calling host with what was declared on it. Classes below it are told to copy
its parameters. -/
structure FunctionClass (w : World) (n : Nat) (card : FunctionCard) (s : Shelf) (C : Nat → Prop) :
    Prop extends w.FunctionHost n card s C where
  told : ∃ k, w.find? (.made n) "__init_subclass__" =
    some (.made k, .ofClass (.bundled (.host .copyParameters)))
  fields : ∀ name ∈ ["_name", "_description"], name ∈ w.attributeNames (.made n)
  opens : w.isOpen (.made n) = true
  line : Session.functionClassRef ∈ w.lineage (.made n) ∧
    Session.servingClassRef ∉ w.lineage (.made n)

/-- A class of a serving host with what was declared on it, and the cell of its schema. Classes below
it are told nothing. -/
structure ServingClass (w : World) (n : Nat) (card : ServingCard) (cell : Option Nat)
    (C : Nat → Prop) : Prop extends w.ServingHost n card C where
  untold : ∀ k a, w.find? (.made n) "__init_subclass__" ≠ some (.made k, a)
  fields : ∀ name ∈ ["_name", "_description", "_input_schema"], name ∈ w.attributeNames (.made n)
  opens : w.isOpen (.made n) = true
  line : Session.servingClassRef ∈ w.lineage (.made n) ∧
    Session.functionClassRef ∉ w.lineage (.made n)
  schemaCell : ∀ k, w.HasSchemaCell n k → cell = some k
  cell_lt : ∀ k, cell = some k → k < w.cells.length

/-- A class of no host: nothing can be declared on it, and classes below it are told nothing. -/
structure PlainClass (w : World) (n : Nat) : Prop where
  rooted : w.Rooted (.made n)
  lacks : ∀ name ∈ ["tool_name", "description"], w.find? (.made n) name = none
  untold : ∀ k a, w.find? (.made n) "__init_subclass__" ≠ some (.made k, a)
  line : Session.functionClassRef ∉ w.lineage (.made n) ∧
    Session.servingClassRef ∉ w.lineage (.made n)

/-- A class below which classes of no host stand: a class of no host, or the class of all objects. -/
structure PlainBase (w : World) (b : ClassRef) : Prop where
  rooted : w.Rooted b
  lacks : ∀ name ∈ ["tool_name", "description"], w.find? b name = none
  untold : ∀ k a, w.find? b "__init_subclass__" ≠ some (.made k, a)
  line : Session.functionClassRef ∉ w.lineage b ∧ Session.servingClassRef ∉ w.lineage b

theorem PlainClass.base (h : w.PlainClass n) : w.PlainBase (.made n) :=
  ⟨h.rooted, h.lacks, h.untold, h.line⟩

theorem plainBase_object (w : World) : w.PlainBase (.builtIn .object) where
  rooted n hn := by simp [lineage, above] at hn
  lacks name hn := by
    simp only [List.mem_cons, List.not_mem_nil, or_false] at hn
    rcases hn with rfl | rfl <;> rfl
  untold k a := find?_builtIn_ne_made w .object _ k a
  line :=
    show Session.functionClassRef ∉ [ClassRef.builtIn .object] ∧
      Session.servingClassRef ∉ [ClassRef.builtIn .object] by decide

theorem FunctionClass.base (h : w.FunctionClass n card s C) :
    w.FunctionBase (.made n) s card.parameters C where
  toHasMethods := h.methods
  told := h.told
  fields := by
    have hp : "_parameters" ∈ w.attributeNames (.made n) := by
      obtain ⟨k, hk⟩ := h.parameters
      exact mem_attributeNames hk
    have hf := h.fields
    simp only [List.forall_mem_cons] at hf ⊢
    exact ⟨hf.1, hf.2.1, hp, fun _ hn => nomatch hn⟩
  parameters := h.parameters
  shelf := h.shelf

theorem ServingClass.base (h : w.ServingClass n served cell C) : w.ServingBase (.made n) where
  toHasMethods := h.methods
  untold := h.untold

/-! ## Hosts in worlds to which a session came -/

/-- A class of a function-calling host is one where no name was declared on it, with the parameters that
are there. -/
theorem FunctionHost.reshelved (h : w.FunctionHost n card s C) (hm : w.Moves v own A)
    (hr : w.Retains v C) (hA : ¬ A n) {s' : Shelf} {t : ParameterTable} (hs : v.Shelves s' t C)
    (hc : s'.cell = s.cell) : v.FunctionHost n { card with parameters := t } s' C where
  toTitled := h.toTitled.kept (hm.keepsClass h.methods.rooted hA) hr
  methods := h.methods.kept (hm.keepsClass h.methods.rooted hA) (by decide)
  parameters := by
    rw [hm.leads.find? h.methods.rooted (by decide), hc]
    exact h.parameters
  shelf := hs

theorem FunctionClass.reshelved (h : w.FunctionClass n card s C) (hm : w.Moves v own A)
    (hr : w.Retains v C) (hA : ¬ A n) {s' : Shelf} {t : ParameterTable} (hs : v.Shelves s' t C)
    (hc : s'.cell = s.cell) : v.FunctionClass n { card with parameters := t } s' C where
  toFunctionHost := h.toFunctionHost.reshelved hm hr hA hs hc
  told := by
    rw [hm.leads.find? h.methods.rooted (by decide)]
    exact h.told
  fields name hn := hm.leads.attributeNames h.methods.rooted (h.fields name hn)
  opens := (hm.leads.isOpen h.methods.rooted).trans h.opens
  line := by
    rw [hm.leads.lineage h.methods.rooted]
    exact h.line

/-- A class of a function-calling host is one where nothing was declared on it and its cells are as they
were. -/
theorem FunctionClass.moves (h : w.FunctionClass n card s C) (hm : w.Moves v own A)
    (hr : w.Retains v C) (hA : ¬ A n) (ho : ∀ k ∈ s.cells, ¬ own k) :
    v.FunctionClass n card s C :=
  h.reshelved hm hr hA (h.shelf.kept hr hm.objects fun k hk x => hm.cells k x (ho k hk)) rfl

theorem HasSchemaCell.of_kept (hk : v.HasSchemaCell n k) (hc : w.KeepsClass v n)
    (ho : w.objects <+: v.objects) (h : w.ServingHost n served C) : w.HasSchemaCell n k := by
  obtain ⟨o, hown, obj, hobj, hcell⟩ := hk
  rw [hc.declared _ (by decide)] at hown
  refine ⟨o, hown, obj, ?_, hcell⟩
  have hs := h.schema
  rw [hown] at hs
  generalize served.schema = fields at hs
  cases hs with
  | given hx hy hat =>
    rw [hat.object, ← hobj, getElem?_of_extended ho hat.object]

theorem HasSchemaCell.of_moves (hk : v.HasSchemaCell n k) (hm : w.Moves v own A)
    (h : w.ServingHost n served C) (hA : ¬ A n) : w.HasSchemaCell n k :=
  hk.of_kept (hm.keepsClass h.methods.rooted hA) hm.objects h

theorem ServingHost.retold (h : w.ServingHost n served C) (hm : w.Moves v own A)
    {served' : ServingCard} (ht : v.Titled n served'.name served'.description C')
    (hs : v.Schemed C' (v.own? (.made n) "_input_schema") served'.schema) :
    v.ServingHost n served' C' where
  toTitled := ht
  methods := ⟨hm.leads.rooted h.methods.rooted, fun row hr => by
    have plain : ∀ row ∈ servingMethods, row.1 ∉ declaredNames := by decide
    rw [hm.leads.find? h.methods.rooted (plain row hr)]
    exact h.methods.finds row hr⟩
  schema := hs

theorem ServingClass.retold (h : w.ServingClass n served cell C) (hm : w.Moves v own A)
    {served' : ServingCard} {cell' : Option Nat} (hh : v.ServingHost n served' C')
    (hcell : ∀ k, v.HasSchemaCell n k → cell' = some k)
    (hlt : ∀ k, cell' = some k → k < v.cells.length) : v.ServingClass n served' cell' C' where
  toServingHost := hh
  untold k a := by
    rw [hm.leads.find? h.methods.rooted (by decide)]
    exact h.untold k a
  fields name hn := hm.leads.attributeNames h.methods.rooted (h.fields name hn)
  opens := (hm.leads.isOpen h.methods.rooted).trans h.opens
  line := by
    rw [hm.leads.lineage h.methods.rooted]
    exact h.line
  schemaCell := hcell
  cell_lt := hlt

theorem ServingClass.moves (h : w.ServingClass n served cell C) (hm : w.Moves v own A)
    (hr : w.Retains v C) (hA : ¬ A n) (ho : ∀ k, cell = some k → ¬ own k) :
    v.ServingClass n served cell C := by
  have kept := h.toServingHost.kept (hm.keepsClass h.methods.rooted hA) hr hm.objects
    fun k hk x => hm.cells k x (ho k (h.schemaCell k hk))
  exact h.retold hm kept
    (fun k hk => h.schemaCell k (hk.of_moves hm h.toServingHost hA))
    fun k hk => Nat.lt_of_lt_of_le (h.cell_lt k hk) hm.cells_le

theorem PlainClass.moves (h : w.PlainClass n) (hm : w.Moves v own A) : v.PlainClass n where
  rooted := hm.leads.rooted h.rooted
  lacks name hn := by
    have plain : ∀ name ∈ ["tool_name", "description"], name ∉ declaredNames := by decide
    exact (hm.leads.find? h.rooted (plain name hn)).trans (h.lacks name hn)
  untold k a := by
    rw [hm.leads.find? h.rooted (by decide)]
    exact h.untold k a
  line := by
    rw [hm.leads.lineage h.rooted]
    exact h.line

theorem Drafts.stays (h : w.Drafts p D) (ho : w.objects <+: v.objects)
    (hh : w.handles <+: v.handles)
    (hc : ∀ k ∈ p.cells, ∀ x, w.cells[k]? = some x → v.cells[k]? = some x) : v.Drafts p D where
  object := h.object.stays ho fun x => hc _ (by simp [Draft.cells]) x
  params := hc _ (by simp [Draft.cells]) _ h.params
  specs := by
    have hcells : ∀ place ∈ p.specs, ∀ x, w.cells[place.2]? = some x → v.cells[place.2]? = some x :=
      fun place hp => hc _ (by simp only [Draft.cells]; grind)
    have hspecs := (List.forall₂_and_left _ _).mpr ⟨hcells, h.specs⟩
    exact hspecs.imp fun place spec hp => hp.2.stays ho hp.1
  table := h.table.stays ho fun x => hc _ (by simp [Draft.cells]) x
  ofInstance := hc _ (by simp [Draft.cells]) _ h.ofInstance
  ofClass := hc _ (by simp [Draft.cells]) _ h.ofClass
  cells := h.cells
  block s hs := getElem?_of_extended hh (h.block s hs)
  instanceBodies row hr := getElem?_of_extended hh (h.instanceBodies row hr)
  classBodies row hr := getElem?_of_extended hh (h.classBodies row hr)
  instanceNames := h.instanceNames
  classNames := h.classNames

theorem Declares.stays (h : w.Declares p D C) (hb : v.Bundled) (hr : w.Retains v C)
    (ho : w.objects <+: v.objects) (hh : w.handles <+: v.handles)
    (hc : ∀ k ∈ p.cells, ∀ x, w.cells[k]? = some x → v.cells[k]? = some x) : v.Declares p D C where
  toDrafts := h.toDrafts.stays ho hh hc
  bundled := hb
  data := hr.holdsData h.data
  apart := h.apart
  values x hx := ⟨(h.values x hx).1.mono hr.data_below, (h.values x hx).2⟩

theorem Declares.moves (h : w.Declares p D C) (hm : w.Moves v own A) (hC : ∀ k, C k → ¬ own k)
    (ho : ∀ k ∈ p.cells, ¬ own k) : v.Declares p D C :=
  h.stays (hm.bundled h.bundled) (hm.retains h.data hC) hm.objects hm.handles
    fun k hk x => hm.cells k x (ho k hk)

/-! ## More data -/

theorem Declares.mono (h : w.Declares p D C) (hd : w.HoldsData C') (hC : ∀ k, C k → C' k)
    (ha : ∀ k ∈ p.cells, C' k → C k) : w.Declares p D C' where
  toDrafts := h.toDrafts
  bundled := h.bundled
  data := hd
  apart k hk hc := h.apart k hk (ha k hk hc)
  values x hx := ⟨(h.values x hx).1.mono (w.data_mono hC), (h.values x hx).2⟩

theorem Titled.mono {name description : Value} (h : w.Titled n name description C)
    (hC : ∀ k, C k → C' k) : w.Titled n name description C' where
  tellsName := h.tellsName
  tellsDescription := h.tellsDescription
  ownName := h.ownName
  ownDescription := h.ownDescription
  data := ⟨h.data.1.mono (w.data_mono hC), h.data.2.mono (w.data_mono hC)⟩

theorem Schemed.mono {a : Option Attribute} {fields : Option (Value × Value)}
    (h : w.Schemed C a fields) (hC : ∀ k, C k → C' k) : w.Schemed C' a fields := by
  cases h with
  | none => exact .none
  | null => exact .null
  | given hx hy hobj =>
    exact .given (hx.mono (w.data_mono hC)) (hy.mono (w.data_mono hC)) hobj

theorem FunctionHost.mono (h : w.FunctionHost n card s C) (hC : ∀ k, C k → C' k)
    (ha : ∀ k ∈ s.cells, ¬ C' k) : w.FunctionHost n card s C' where
  toTitled := h.toTitled.mono hC
  methods := h.methods
  parameters := h.parameters
  shelf := h.shelf.mono hC ha

theorem FunctionClass.mono (h : w.FunctionClass n card s C) (hC : ∀ k, C k → C' k)
    (ha : ∀ k ∈ s.cells, ¬ C' k) : w.FunctionClass n card s C' where
  toFunctionHost := h.toFunctionHost.mono hC ha
  told := h.told
  fields := h.fields
  opens := h.opens
  line := h.line

theorem ServingHost.mono (h : w.ServingHost n served C) (hC : ∀ k, C k → C' k) :
    w.ServingHost n served C' where
  toTitled := h.toTitled.mono hC
  methods := h.methods
  schema := h.schema.mono hC

theorem ServingClass.mono (h : w.ServingClass n served cell C) (hC : ∀ k, C k → C' k) :
    w.ServingClass n served cell C' where
  toServingHost := h.toServingHost.mono hC
  untold := h.untold
  fields := h.fields
  opens := h.opens
  line := h.line
  schemaCell := h.schemaCell
  cell_lt := h.cell_lt

/-! ## Entries -/

inductive Enters (w : World) (C : Nat → Prop) : Owner → Account → Prop
  | function {n : Nat} {card : FunctionCard} {s : Shelf} (h : w.FunctionClass n card s C) :
    Enters w C (.cls n) (.function card s)
  | serving {n : Nat} {card : ServingCard} {cell : Option Nat}
    (h : w.ServingClass n card cell C) : Enters w C (.cls n) (.serving card cell)
  | plain {n : Nat} (h : w.PlainClass n) : Enters w C (.cls n) .plain
  | definition {id : String} {p : Draft} {D : Definition Stored} (h : Session.Holds w id p D C) :
    Enters w C (.definition id) (.definition p D)

variable {r : Owner} {a : Account}

theorem Enters.lt (h : w.Enters C r a) (hk : a.cells k) : k < w.cells.length := by
  cases h with
  | function h => exact h.shelf.lt hk
  | serving h => exact h.cell_lt k hk
  | plain h => exact hk.elim
  | definition h => exact h.toDrafts.lt hk

theorem Enters.not_data (h : w.Enters C r a) (hk : a.changes k) : ¬ C k := by
  cases h with
  | function h => exact h.shelf.apart k (Account.changes_cells hk)
  | serving h => exact hk.elim
  | plain h => exact hk.elim
  | definition h => exact h.apart k (Draft.changes_cells hk)

theorem Enters.moves (h : w.Enters C r a) (hm : w.Moves v own A) (hd : w.HoldsData C)
    (hC : ∀ k, C k → ¬ own k) (hA : ∀ n, A n → r ≠ .cls n)
    (ho : ∀ k, a.cells k → ¬ own k)
    (hids : ∀ id, r = .definition id →
      Table.find? v.definitionIds id = Table.find? w.definitionIds id) :
    v.Enters C r a := by
  have hr := hm.retains hd hC
  cases h with
  | function h => exact .function (h.moves hm hr (fun hn => hA _ hn rfl) ho)
  | serving h => exact .serving (h.moves hm hr (fun hn => hA _ hn rfl) ho)
  | plain h => exact .plain (h.moves hm)
  | definition h =>
    exact .definition ⟨h.toDeclares.moves hm hC ho, (hids _ rfl).trans h.named⟩

theorem Enters.mono (h : w.Enters C r a) (hd : w.HoldsData C') (hC : ∀ k, C k → C' k)
    (hf : ∀ k, a.cells k → C' k → C k) : w.Enters C' r a := by
  cases h with
  | function h =>
    exact .function (h.mono hC fun k hk hc => h.shelf.apart k hk (hf k hk hc))
  | serving h => exact .serving (h.mono hC)
  | plain h => exact .plain h
  | definition h => exact .definition ⟨h.toDeclares.mono hd hC hf, h.named⟩

/-! ## Ledgers -/

/-- A world bears out all entries of a ledger, in which all classes and definitions that have names are
entered, and all classes that stand for hosts. No entry stands on cells that change for another one. -/
structure Follows (w : World) (l : Ledger) (C : Nat → Prop) : Prop where
  bundled : w.Bundled
  extras : w.extras = []
  data : w.HoldsData C
  hosts : ∀ kind c, w.resolveHost kind = some c → ∃ n a, c = .made n ∧ l (.cls n) = some a
  enters : ∀ r a, l r = some a → w.Enters C r a
  apart : ∀ r r' a b, r ≠ r' → l r = some a → l r' = some b → ∀ k, a.changes k → ¬ b.cells k
  classes : ∀ id c, Table.find? w.classIds id = some c → ∃ n a, c = .made n ∧ l (.cls n) = some a
  definitions : ∀ id x, Table.find? w.definitionIds id = some x →
    ∃ a, l (.definition id) = some a
  function : ∃ a, l (.cls 0) = some a
  serving : ∃ a, l (.cls 1) = some a

variable {l : Ledger}

theorem Follows.update (h : w.Follows l C) (hm : w.Moves v own A)
    (hhosts : ∀ kind c, v.resolveHost kind = some c →
      w.resolveHost kind = some c ∨ ∃ id, Table.find? w.classIds id = some c)
    (hd : v.HoldsData C') (hC : ∀ k, C k → C' k)
    (hf : ∀ k, C' k → C k ∨ w.cells.length ≤ k)
    (ho : ∀ k, own k → ∃ b, l r = some b ∧ b.changes k) (hA : ∀ n, A n → r = .cls n)
    (ha : v.Enters C' r a)
    (hcells : ∀ k, a.cells k → l.Allows r k ∨ w.cells.length ≤ k)
    (hchanges : ∀ k, a.changes k → (∃ b, l r = some b ∧ b.changes k) ∨ w.cells.length ≤ k)
    (hclasses : ∀ id c, Table.find? v.classIds id = some c →
      Table.find? w.classIds id = some c ∨ ∃ n, c = .made n ∧ r = .cls n)
    (hdefinitions : ∀ id, r ≠ .definition id →
      Table.find? v.definitionIds id = Table.find? w.definitionIds id) :
    v.Follows (l.enter r a) C' where
  bundled := hm.bundled h.bundled
  extras := hm.extras.trans h.extras
  data := hd
  hosts kind c hc := by
    obtain ⟨n, b, rfl, hb⟩ : ∃ n a, c = .made n ∧ l (.cls n) = some a := by
      rcases hhosts kind c hc with hold | ⟨id, hid⟩
      · exact h.hosts kind c hold
      · exact h.classes id c hid
    by_cases hr : Owner.cls n = r
    · subst hr
      exact ⟨n, a, rfl, l.enter_self ..⟩
    · exact ⟨n, b, rfl, (Ledger.enter_of_ne hr a).trans hb⟩
  enters r' b hb := by
    by_cases hr : r' = r
    · subst hr
      rw [Ledger.enter_self] at hb
      cases hb
      exact ha
    · rw [Ledger.enter_of_ne hr] at hb
      have hin := h.enters r' b hb
      refine Enters.mono (hin.moves hm h.data ?_ ?_ ?_ ?_) hd hC ?_
      · intro k hk hown
        obtain ⟨b', hb', hch⟩ := ho k hown
        exact (h.enters r b' hb').not_data hch hk
      · rintro n hn rfl
        exact hr (hA n hn).symm
      · intro k hk hown
        obtain ⟨b', hb', hch⟩ := ho k hown
        exact h.apart r r' b' b (Ne.symm hr) hb' hb k hch hk
      · rintro id rfl
        exact hdefinitions id (Ne.symm hr)
      · intro k hk hc
        exact (hf k hc).resolve_right (Nat.not_le_of_lt (hin.lt hk))
  apart r₁ r₂ b₁ b₂ hne h₁ h₂ k hk hc := by
    by_cases hr₁ : r₁ = r
    · subst hr₁
      rw [Ledger.enter_self] at h₁
      rw [Ledger.enter_of_ne hne.symm] at h₂
      cases h₁
      rcases hchanges k hk with ⟨b, hb, hch⟩ | hle
      · exact h.apart r₁ r₂ b b₂ hne hb h₂ k hch hc
      · exact absurd ((h.enters r₂ b₂ h₂).lt hc) (Nat.not_lt_of_le hle)
    · rw [Ledger.enter_of_ne hr₁] at h₁
      by_cases hr₂ : r₂ = r
      · subst hr₂
        rw [Ledger.enter_self] at h₂
        cases h₂
        rcases hcells k hc with (⟨b, hb, hcb⟩ | ⟨r', b, hb, hcb, hfixed⟩) | hle
        · exact h.apart r₁ r₂ b₁ b hne h₁ hb k hk hcb
        · by_cases hr' : r₁ = r'
          · subst hr'
            cases h₁.symm.trans hb
            exact hfixed hk
          · exact h.apart r₁ r' b₁ b hr' h₁ hb k hk hcb
        · exact absurd ((h.enters r₁ b₁ h₁).lt (Account.changes_cells hk)) (Nat.not_lt_of_le hle)
      · rw [Ledger.enter_of_ne hr₂] at h₂
        exact h.apart r₁ r₂ b₁ b₂ hne h₁ h₂ k hk hc
  classes id c hc := by
    rcases hclasses id c hc with hold | ⟨n, rfl, rfl⟩
    · obtain ⟨n, b, rfl, hb⟩ := h.classes id c hold
      by_cases hr : Owner.cls n = r
      · subst hr
        exact ⟨n, a, rfl, l.enter_self ..⟩
      · exact ⟨n, b, rfl, (Ledger.enter_of_ne hr a).trans hb⟩
    · exact ⟨n, a, rfl, l.enter_self ..⟩
  definitions id x hx := by
    by_cases hr : Owner.definition id = r
    · subst hr
      exact ⟨a, l.enter_self ..⟩
    · obtain ⟨b, hb⟩ := h.definitions id x ((hdefinitions id (Ne.symm hr)).symm.trans hx)
      exact ⟨b, (Ledger.enter_of_ne hr a).trans hb⟩
  function := by
    by_cases hr : Owner.cls 0 = r
    · subst hr
      exact ⟨a, l.enter_self ..⟩
    · obtain ⟨b, hb⟩ := h.function
      exact ⟨b, (Ledger.enter_of_ne hr a).trans hb⟩
  serving := by
    by_cases hr : Owner.cls 1 = r
    · subst hr
      exact ⟨a, l.enter_self ..⟩
    · obtain ⟨b, hb⟩ := h.serving
      exact ⟨b, (Ledger.enter_of_ne hr a).trans hb⟩

theorem Follows.unchanged (h : w.Follows l C) (hm : w.Moves v (fun _ => False) fun _ => False)
    (hhosts : ∀ kind c, v.resolveHost kind = some c →
      w.resolveHost kind = some c ∨ ∃ id, Table.find? w.classIds id = some c)
    (hd : v.HoldsData C') (hC : ∀ k, C k → C' k) (hf : ∀ k, C' k → C k ∨ w.cells.length ≤ k)
    (hids : v.names = w.names) :
    v.Follows l C' := by
  obtain ⟨a, ha⟩ := h.function
  have hclasses : v.classIds = w.classIds := congrArg Names.classes hids
  have hdefinitions : v.definitionIds = w.definitionIds := congrArg Names.definitions hids
  have hin := h.enters _ a ha
  have hnew := Enters.mono (hin.moves hm h.data (fun _ _ => id)
    (fun _ hn => hn.elim) (fun _ _ => id) fun _ hid => nomatch hid) hd hC
    fun k hk hc => (hf k hc).resolve_right (Nat.not_le_of_lt (hin.lt hk))
  have := h.update hm hhosts hd hC hf (fun _ hk => hk.elim) (fun _ hn => hn.elim) hnew
    (fun k hk => .inl (.inl ⟨a, ha, hk⟩)) (fun k hk => .inl ⟨a, ha, hk⟩)
    (fun id c hc => .inl (by rw [← hclasses]; exact hc)) (fun id _ => by rw [hdefinitions])
  rwa [Ledger.enter_eq_self ha] at this

end World

end Toolwright
