import Toolwright.Proofs.Tree.Declarations
import Toolwright.Proofs.Tree.Subclasses
/-!
# Steps of a session that keeps account
Each step that makes a definition or a class, declares something of one, or adapts a definition to a
host enters at most one thing, which is new or was there under the same name. A step that fails enters
nothing, unless it declares something of a definition.
-/

namespace Toolwright

set_option autoImplicit false

namespace World

variable {w v u : World} {l l' l'' : Ledger} {C C' C'' own A : Nat → Prop} {R R' : Owner → Prop}
  {r : Owner} {a : Account} {n : Nat}

/-- A session came to a world that bears out another ledger, in which at most the entries of some
owners differ. -/
structure Advances (w : World) (l : Ledger) (C : Nat → Prop) (v : World) (l' : Ledger)
    (C' : Nat → Prop) (R : Owner → Prop) : Prop where
  follows : v.Follows l' C'
  leads : w.LeadsTo v
  retains : w.Retains v C
  data : ∀ k, C k → C' k
  fresh : ∀ k, C' k → C k ∨ w.cells.length ≤ k
  others : ∀ r, ¬ R r → l' r = l r
  hosts : ∀ kind, ¬ R (.host kind) → v.resolveHost kind = w.resolveHost kind

theorem Retains.anti (h : w.Retains v C') (hC : ∀ k, C k → C' k) : w.Retains v C where
  cells k hk := h.cells k (hC k hk)
  cells_le := h.cells_le
  handles_le := h.handles_le
  marks_le := h.marks_le
  logFrom := h.logFrom

namespace Advances

theorem refl (h : w.Follows l C) (R : Owner → Prop) : w.Advances l C w l C R where
  follows := h
  leads := .refl
  retains := .refl w C
  data _ hk := hk
  fresh _ := .inl
  others _ _ := rfl
  hosts _ _ := rfl

theorem trans (h : w.Advances l C v l' C' R) (h' : v.Advances l' C' u l'' C'' R) :
    w.Advances l C u l'' C'' R where
  follows := h'.follows
  leads := h.leads.trans h'.leads
  retains := h.retains.trans (h'.retains.anti h.data)
  data k hk := h'.data k (h.data k hk)
  fresh k hk := (h'.fresh k hk).elim (h.fresh k) fun hle =>
    .inr (Nat.le_trans h.retains.cells_le hle)
  others r hr := (h'.others r hr).trans (h.others r hr)
  hosts kind hr := (h'.hosts kind hr).trans (h.hosts kind hr)

theorem mono (h : w.Advances l C v l' C' R) (hR : ∀ r, R r → R' r) :
    w.Advances l C v l' C' R' :=
  { h with
    others := fun r hr => h.others r fun hr' => hr (hR r hr')
    hosts := fun kind hr => h.hosts kind fun hr' => hr (hR _ hr') }

theorem entered (h : w.Advances l C v l C' fun _ => False) (hr : l r = some a) :
    w.Advances l C v (l.enter r a) C' (· = r) where
  follows := by
    rw [Ledger.enter_eq_self hr]
    exact h.follows
  leads := h.leads
  retains := h.retains
  data := h.data
  fresh := h.fresh
  others _ hne := Ledger.enter_of_ne hne a
  hosts kind _ := h.hosts kind not_false

end Advances

namespace Follows

variable (h : w.Follows l C)

include h

theorem changes_lt {b : Account} {k : Nat} (hb : l r = some b) (hk : b.changes k) : ¬ C k :=
  (h.enters r b hb).not_data hk

theorem cls_lt (hn : l (.cls n) = some a) : n < w.classes.length := by
  have rooted : w.Rooted (.made n) := by
    cases h.enters _ a hn with
    | function h => exact h.methods.rooted
    | serving h => exact h.methods.rooted
    | plain h => exact h.rooted
  obtain ⟨cls, hcls⟩ := rooted n List.mem_cons_self
  exact (List.getElem?_eq_some_iff.mp hcls).1

theorem advances (hm : w.Moves v own A) (hhosts : ∀ kind, v.resolveHost kind = w.resolveHost kind)
    (hd : v.HoldsData C') (hC : ∀ k, C k → C' k)
    (hf : ∀ k, C' k → C k ∨ w.cells.length ≤ k)
    (ho : ∀ k, own k → ∃ b, l r = some b ∧ b.changes k) (hA : ∀ n, A n → r = .cls n)
    (ha : v.Enters C' r a)
    (hcells : ∀ k, a.cells k → l.Allows r k ∨ w.cells.length ≤ k)
    (hchanges : ∀ k, a.changes k → (∃ b, l r = some b ∧ b.changes k) ∨ w.cells.length ≤ k)
    (hclasses : ∀ id c, Table.find? v.classIds id = some c →
      Table.find? w.classIds id = some c ∨ ∃ n, c = .made n ∧ r = .cls n)
    (hdefinitions : ∀ id, r ≠ .definition id →
      Table.find? v.definitionIds id = Table.find? w.definitionIds id) :
    w.Advances l C v (l.enter r a) C' (· = r) where
  follows := h.update hm (fun kind _ hc => .inl (hhosts kind ▸ hc)) hd hC hf ho hA ha hcells hchanges
    hclasses hdefinitions
  leads := hm.leads
  retains := hm.retains h.data fun k hk hown => by
    obtain ⟨b, hb, hch⟩ := ho k hown
    exact h.changes_lt hb hch hk
  data := hC
  fresh := hf
  others r' hr := Ledger.enter_of_ne hr a
  hosts kind _ := hhosts kind

theorem advances_named (hl : w.Later u own) (names : Names) (hd : u.HoldsData C')
    (hC : ∀ k, C k → C' k) (hf : ∀ k, C' k → C k ∨ w.cells.length ≤ k)
    (ho : ∀ k, own k → ∃ b, l r = some b ∧ b.changes k) (ha : (u.named names).Enters C' r a)
    (hcells : ∀ k, a.cells k → l.Allows r k ∨ w.cells.length ≤ k)
    (hchanges : ∀ k, a.changes k → (∃ b, l r = some b ∧ b.changes k) ∨ w.cells.length ≤ k)
    (hclasses : ∀ id c, Table.find? names.classes id = some c →
      Table.find? w.classIds id = some c ∨ ∃ n, c = .made n ∧ r = .cls n)
    (hdefinitions : ∀ id, r ≠ .definition id →
      Table.find? names.definitions id = Table.find? w.definitionIds id) :
    w.Advances l C (u.named names) (l.enter r a) C' (· = r) := by
  refine h.advances ((hl.moves fun _ => False).trans (u.moves_named names _ _))
    (fun kind => ?_) hd hC hf ho (fun _ hn => hn.elim) ha hcells hchanges hclasses hdefinitions
  exact hl.resolveHost kind

/-- Where a session adds nothing but data, records and things without names, all entries hold on. -/
theorem advances_later (hl : w.Later v fun _ => False) (hd : v.HoldsData C') (hC : ∀ k, C k → C' k)
    (hf : ∀ k, C' k → C k ∨ w.cells.length ≤ k) :
    w.Advances l C v l C' fun _ => False where
  follows := h.unchanged (hl.moves _)
    (fun kind _ hc => .inl (hl.resolveHost kind ▸ hc)) hd hC hf hl.names
  leads := LeadsTo.refl.later hl
  retains := hl.retains h.data fun _ _ => id
  data := hC
  fresh := hf
  others _ _ := rfl
  hosts kind _ := hl.resolveHost kind

theorem advances_gains (hg : w.Gains C v) :
    w.Advances l C v l (w.gained C v) fun _ => False :=
  h.advances_later hg.later hg.data (hg.below h.data).cell fun _ => And.left

theorem advances_log (log : List Record) :
    w.Advances l C { w with log } l C fun _ => False :=
  have hl := (Later.refl w fun _ => False).log log
  h.advances_later hl ((hl.retains h.data fun _ _ => id).holdsData h.data) (fun _ => id) fun _ => .inl

theorem advances_class (hl : w.Later u fun _ => False) (hd : u.HoldsData C') (hC : ∀ k, C k → C' k)
    (hf : ∀ k, C' k → C k ∨ w.cells.length ≤ k) (ha : u.Enters C' (.cls n) a)
    (hcells : ∀ k, a.cells k → l.Allows (.cls n) k ∨ w.cells.length ≤ k)
    (hchanges : ∀ k, a.changes k → w.cells.length ≤ k) (c : String) :
    w.Advances l C (u.named { u.names with classes := Table.insert c (.made n) u.classIds })
      (l.enter (.cls n) a) C' (· = .cls n) := by
  have hids := hl.names
  refine h.advances_named hl _ hd hC hf (fun _ hk => hk.elim) ?_ hcells
    (fun k hk => .inr (hchanges k hk)) (fun c' b hc => ?_) fun d _ => ?_
  · exact ha.moves (u.moves_named _ _ fun _ => False) hd (fun _ _ => id)
      (fun _ hn => hn.elim) (fun _ _ => id) fun _ he => nomatch he
  · have hc := (Table.find?_insert u.classIds c c' _).symm.trans hc
    split at hc
    · exact .inr ⟨n, (Option.some.inj hc).symm, rfl⟩
    · rw [show u.classIds = w.classIds from congrArg World.Names.classes hids] at hc
      exact .inl hc
  · exact congrArg (Table.find? · d) (congrArg World.Names.definitions hids)

theorem allows_rows {m : Nat} {card card' : FunctionCard} {s : Shelf} (s' : Shelf)
    (hm : l (.cls m) = some (.function card s)) (hcell : w.cells.length ≤ s'.cell)
    (hrows : ∀ row ∈ s'.rows, row ∈ s.rows ∨ w.cells.length ≤ row.2.2) (r : Owner) {k : Nat}
    (hk : (Account.function card' s').cells k) : l.Allows r k ∨ w.cells.length ≤ k := by
  rcases List.mem_cons.mp (show k ∈ s'.cells from hk) with rfl | hk
  · exact .inr hcell
  · obtain ⟨row, hrow, rfl⟩ := List.mem_map.mp hk
    refine (hrows row hrow).imp_left fun hold => .inr ⟨_, _, hm, ?_, ?_⟩
    · exact List.mem_cons_of_mem _ (List.mem_map_of_mem hold)
    · rintro he
      cases h.enters _ _ hm with
      | function hf =>
        exact hf.shelf.cells (he ▸ List.mem_map_of_mem (f := fun row => row.2.2) hold)

theorem advances_declared (hn : l (.cls n) = some a) (hp : a ≠ .plain) {key : String}
    (hk : key ∈ ["_name", "_description"]) {y : Value} (hy : y.Within (w.data C)) :
    w.Advances l C (w.setAttribute n key (.value y)) (l.enter (.cls n) (a.declare key y)) C
      (· = .cls n) := by
  have hm : key ∈ declaredNames := by
    simp only [List.mem_cons, List.not_mem_nil, or_false] at hk
    rcases hk with rfl | rfl <;> decide
  have host : w.IsHost n := by
    cases h.enters _ _ hn with
    | function hf => exact hf.toTitled.isHost
    | serving hf => exact hf.toTitled.isHost
    | plain => exact absurd rfl hp
  obtain ⟨ha, hcells, hchanges⟩ : (w.setAttribute n key (.value y)).Enters C (.cls n) (a.declare key y) ∧
      (a.declare key y).cells = a.cells ∧ (a.declare key y).changes = a.changes := by
    cases h.enters _ _ hn with
    | function hf => exact ⟨.function (hf.declare hm hy), rfl, rfl⟩
    | serving hf => exact ⟨.serving (hf.declare hk hy), rfl, rfl⟩
    | plain => exact absurd rfl hp
  exact h.advances (w.moves_setAttribute host hm y fun _ => False) (fun _ => rfl) h.data
    (fun _ => id) (fun _ => .inl) (fun _ hk => hk.elim) (fun k hk => by rw [hk]) ha
    (fun k hk => .inl (.inl ⟨a, hn, hcells ▸ hk⟩)) (fun k hk => .inl ⟨a, hn, hchanges ▸ hk⟩)
    (fun _ _ => .inl) fun _ _ => rfl

theorem advances_param {card : FunctionCard} {s : Shelf} (hn : l (.cls n) = some (.function card s))
    (hl : w.Later v (· = s.cell)) {rows : List (String × Nat × Nat)} {t : ParameterTable}
    (hs : v.Shelves ⟨s.cell, rows⟩ t C)
    (hrows : ∀ row ∈ rows, row ∈ s.rows ∨ w.cells.length ≤ row.2.2) :
    w.Advances l C v (l.enter (.cls n) (.function { card with parameters := t } ⟨s.cell, rows⟩)) C
      (· = .cls n) := by
  cases h.enters _ _ hn with
  | function hf =>
  have hown : ∀ k, k = s.cell → ∃ b, l (.cls n) = some b ∧ b.changes k :=
    fun k hk => ⟨_, hn, hk⟩
  have hr := hl.retains h.data fun k hk he => hf.shelf.apart k (he ▸ List.mem_cons_self) hk
  have hids := hl.names
  refine h.advances_named hl v.names (hr.holdsData h.data) (fun _ => id) (fun _ => .inl) hown
    (.function (hf.reshelved (hl.moves fun _ => False) hr id hs rfl)) (fun k hk => ?_)
    (fun k hk => .inl ⟨_, hn, hk⟩) (fun id c hc => .inl ?_) fun id _ => ?_
  · rcases List.mem_cons.mp (show k ∈ s.cell :: _ from hk) with rfl | hk
    · exact .inl (.inl ⟨_, hn, List.mem_cons_self⟩)
    · obtain ⟨row, hrow, rfl⟩ := List.mem_map.mp hk
      exact (hrows row hrow).imp_left fun hold =>
        .inl ⟨_, hn, List.mem_cons_of_mem _ (List.mem_map_of_mem hold)⟩
  · rw [← hc, hids]
    rfl
  · rw [hids]
    rfl

end Follows

/-- A definition that is declared further stands on the cells that it stood on, and on new ones. -/
theorem Further.cells {p p' : Draft} {D' : Definition Stored} (h : w.Further v p p' D' C C') {k : Nat}
    (hk : k ∈ p'.cells) : k ∈ p.cells ∨ w.cells.length ≤ k := by
  rw [h.place] at hk
  simp only [Draft.cells, List.mem_cons, List.mem_map] at hk ⊢
  rcases hk with hk | hk | hk | hk | hk | ⟨s, hs, rfl⟩
  · exact .inl (.inl hk)
  · exact .inl (.inr (.inl hk))
  · exact .inl (.inr (.inr (.inl hk)))
  · exact .inl (.inr (.inr (.inr (.inl hk))))
  · exact .inl (.inr (.inr (.inr (.inr (.inl hk)))))
  · refine (h.specs s hs).imp_left fun hold => ?_
    exact .inr (.inr (.inr (.inr (.inr ⟨s, hold, rfl⟩))))

end World

namespace Session

variable {w v : World} {l : Ledger} {C : Nat → Prop} {id : String} {x : Except Fault Value}

/-! ## Definitions -/

theorem exec_definitionById_none (h : Table.find? w.definitionIds id = none) :
    (Run.definitionById (some id)).exec w = (.error (.unknownId id), w) := by
  unfold Run.definitionById Run.resolveId
  rw [Run.exec_bind, Run.exec_world]
  dsimp only
  rw [Run.exec_bind, Run.exec_world]
  dsimp only
  rw [h]
  rfl

theorem advances_define (h : w.Follows l C) {name : Literal}
    (hr : (machine.step (.define id name none)).exec w = (x, v)) :
    ∃ l' C', w.Advances l C v l' C' (· = .definition id) := by
  obtain ⟨hg, -⟩ | ⟨u, y, -, hg, hy, hs, rfl⟩ := define_cases h.bundled h.data hr
  · exact ⟨l, _, (h.advances_gains hg).mono fun _ => False.elim⟩
  have hb := hg.later.bundled h.bundled
  have hl : w.Later (u.withDefinition y) (fun _ => False) :=
    hg.later.trans (u.later_withDefinition y) fun _ hn _ => hn
  have declares := World.declares_withDefinition hb hg.data hy hs
  have hnew (k : Nat) (hk : k ∈ (newDraft u).cells) : w.cells.length ≤ k := by
    have hle := hg.later.cells_le
    simp only [Draft.cells, newDraft, List.map_nil, List.mem_cons, List.not_mem_nil, or_false] at hk
    omega
  have hids : u.names = w.names := hg.later.names
  refine ⟨_, _, h.advances_named hl _ declares.data (hg.below h.data).cell (fun _ => And.left)
    (fun _ hk => hk.elim) (.definition (.bind declares id)) (fun k hk => .inr (hnew k hk))
    (fun k hk => .inr (hnew k (Draft.changes_cells hk))) (fun id c hc => .inl ?_) fun id' hne => ?_⟩
  · rw [← hc, show w.classIds = u.classIds from (congrArg World.Names.classes hids).symm]
    rfl
  · refine (Table.find?_insert u.definitionIds id id' _).trans ?_
    rw [if_neg fun he => hne (by rw [he]),
      show u.definitionIds = w.definitionIds from congrArg World.Names.definitions hids]

theorem advances_builder (h : w.Follows l C) (op : Builder)
    (hr : (machine.step (op.step id)).exec w = (x, v)) :
    ∃ l' C', w.Advances l C v l' C' (· = .definition id) := by
  have named : machine.step (op.step id) = (do
      (Machine.nested 999).definitionStep (← Run.definitionById (some id)) (op.step id)) := by
    cases op <;> rfl
  cases hfound : Table.find? w.definitionIds id with
  | none =>
    rw [named, Run.exec_bind, exec_definitionById_none hfound] at hr
    cases hr
    exact ⟨l, C, .refl h _⟩
  | some d =>
  obtain ⟨a, ha⟩ := h.definitions id d hfound
  cases h.enters _ a ha with
  | definition holds =>
  rename_i p D
  have develops := Machine.exec_declaring 996 holds.toDeclares id op
  rw [exec_named holds named] at hr
  rw [hr] at develops
  have entered {p' : Draft} {D' : Definition Stored} {C' : Nat → Prop}
      (hf : w.Further v p p' D' C C') :
      ∃ l' C', w.Advances l C v l' C' (· = .definition id) := by
    have hids := hf.later.names
    refine ⟨_, C', h.advances_named hf.later v.names hf.declares.data hf.data hf.fresh
      (fun k hk => ⟨_, ha, hk⟩) (.definition (holds.further hf))
      (fun k hk => (hf.cells hk).imp_left fun hk => .inl ⟨_, ha, hk⟩) (fun k hk => .inl ⟨_, ha, ?_⟩)
      (fun id c hc => .inl ?_) fun id' _ => ?_⟩
    · have hk : p'.changes k := hk
      rw [hf.changes] at hk
      exact hk
    · rw [← hc, hids]
      rfl
    · rw [hids]
      rfl
  cases develops with
  | done hn hf => exact entered hf
  | failed hr hf => exact entered hf

/-! ## Classes below classes of hosts -/

variable {base : String} {attributes : Literal.Rows} {response : Option String} {execute : Option Block}
  {name : String} {m : Nat} {card : FunctionCard} {served : ServingCard} {s : Shelf}
  {cell : Option Nat} {b : ClassRef}

theorem exec_subclass (hb : Table.find? w.classIds base = some b) :
    (machine.step (.subclass id (some base) name attributes response execute)).exec w = Run.exec (do
      (Machine.nested 999).subclass id b name attributes response execute
      return .null) w := by
  have step : machine.step (.subclass id (some base) name attributes response execute) = (do
      let b ← Run.classById base
      (Machine.nested 999).subclass id b name attributes response execute
      return .null) := by
    show (do
      let b := (← Run.classIfGiven (some base)).getD (.builtIn .object)
      (Machine.nested 999).subclass id b name attributes response execute
      return Value.null) = _
    unfold Run.classIfGiven
    rw [Option.mapM_some]
    simp only [map_eq_pure_bind, bind_assoc, pure_bind, Option.getD_some]
  rw [step, Run.exec_bind, exec_classById rfl, hb]

theorem exec_subclass_bare :
    (machine.step (.subclass id none name attributes response execute)).exec w = Run.exec (do
      (Machine.nested 999).subclass id (.builtIn .object) name attributes response execute
      return .null) w := rfl

theorem advances_subclass (h : w.Follows l C) {below : Option String}
    (hb : (machine.step (.subclass id below name attributes response execute)).exec w = Run.exec (do
      (Machine.nested 999).subclass id b name attributes response execute
      return .null) w) {names : List String} (hs : Spares attributes names)
    (hne : ∀ key ∈ names, key ≠ "Response" ∧ key ≠ "execute") {P : Account → Prop}
    (built : ∀ {u u' C₁ given z}, w.Later u (fun _ => False) → u.Follows l C₁ →
      (∀ key ∈ names, Table.find? (Table.ofRows given) key = none) →
      (∀ x slots, Table.find? (Table.ofRows given) "__slots__" = some (.value x) →
        ClassPlan.slotNames (u.followed x) = .ok slots → ∀ key ∈ names, key ∉ slots) →
      ((Machine.nested 999).buildClass name b given).exec u = (z, u') →
      (u' = u ∧ ∀ n, z ≠ .ok n) ∨ ∃ a, P a ∧ z = .ok u.classes.length ∧
        u.Later u' (fun _ => False) ∧ u'.Enters C₁ (.cls u.classes.length) a ∧
        (∀ k, a.cells k → l.Allows (.cls u.classes.length) k ∨ w.cells.length ≤ k) ∧
        (∀ k, a.changes k → w.cells.length ≤ k) ∧
        u'.className (.made u.classes.length) = name)
    (hr : (machine.step (.subclass id below name attributes response execute)).exec w = (x, v)) :
    ((∃ f, x = .error f) ∧ ∃ C', w.Advances l C v l C' fun _ => False) ∨
      ∃ n a C', x = .ok .null ∧ w.classes.length ≤ n ∧ P a ∧
        w.Advances l C v (l.enter (.cls n) a) C' (· = .cls n) ∧
        Table.find? v.classIds id = some (.made n) ∧ v.className (.made n) = name := by
  have step {y : Except Fault Unit} {u : World}
      (hr : ((Machine.nested 999).subclass id b name attributes response execute).exec w = (y, u)) :
      ((∃ f, y = .error f) ∧ ∃ C', w.Advances l C u l C' fun _ => False) ∨
      ∃ n a C', y = .ok () ∧ w.classes.length ≤ n ∧ P a ∧
        w.Advances l C u (l.enter (.cls n) a) C' (· = .cls n) ∧
        Table.find? u.classIds id = some (.made n) ∧ u.className (.made n) = name := by
    obtain ⟨u₁, hg, ⟨f, rfl, rfl⟩ | ⟨given, hnone, hslots, hmade⟩⟩ :=
      Machine.subclass_cases _ h.bundled h.data hs hne hr
    · exact .inl ⟨⟨f, rfl⟩, _, h.advances_gains hg⟩
    have ha := h.advances_gains hg
    rcases Run.exec_bind_cases hmade with ⟨f, rfl, hbuild⟩ | ⟨n, u₂, hbuild, hbind⟩
    · rcases built hg.later ha.follows hnone hslots hbuild with ⟨rfl, -⟩ | ⟨_, _, ⟨⟩, _⟩
      exact .inl ⟨⟨f, rfl⟩, _, ha⟩
    · obtain ⟨-, hno⟩ | ⟨a, hP, he, hl, hin, hcells, hchanges, hname⟩ :=
        built hg.later ha.follows hnone hslots hbuild
      · exact absurd rfl (hno n)
      cases he
      cases hbind
      have hd := (hl.retains ha.follows.data fun _ _ => not_false).holdsData ha.follows.data
      exact .inr ⟨_, a, _, rfl, hg.later.classes.length_le, hP, h.advances_class
        (hg.later.trans hl fun _ hn _ => hn) hd ha.data ha.fresh hin hcells hchanges id,
        (Table.find?_insert u₂.classIds id id _).trans (if_pos rfl), hname⟩
  rw [hb] at hr
  rcases Run.exec_bind_cases hr with ⟨f, rfl, hsub⟩ | ⟨_, u, hsub, hr⟩
  · rcases step hsub with ⟨-, ha⟩ | ⟨_, _, _, ⟨⟩, _⟩
    exact .inl ⟨⟨f, rfl⟩, ha⟩
  · obtain ⟨⟨f, ⟨⟩⟩, -⟩ | ⟨n, a, C', -, hn, hP, ha, hid, hname⟩ := step hsub
    cases hr
    exact .inr ⟨n, a, C', rfl, hn, hP, ha, hid, hname⟩

/-- A class that is made below a class of a function-calling host is entered with the parameters of that
class, and with nothing else. -/
theorem advances_subclass_function (h : w.Follows l C)
    (hb : Table.find? w.classIds base = some (.made m))
    (hm : l (.cls m) = some (.function card s)) (hs : Spares attributes functionNames)
    (hr : (machine.step (.subclass id (some base) name attributes response execute)).exec w = (x, v)) :
    ((∃ f, x = .error f) ∧ ∃ C', w.Advances l C v l C' fun _ => False) ∨
      ∃ n a C', x = .ok .null ∧ w.classes.length ≤ n ∧
        (∃ s', a = .function ⟨.null, .null, card.parameters⟩ s') ∧
        w.Advances l C v (l.enter (.cls n) a) C' (· = .cls n) ∧
        Table.find? v.classIds id = some (.made n) ∧ v.className (.made n) = name := by
  refine advances_subclass h (exec_subclass hb) hs (by decide) (fun hl hu hnone hslots hbuild => ?_) hr
  cases hu.enters _ _ hm with
  | function hf =>
    rcases Machine.of_buildFunction 997 hf hu.bundled hu.data hnone hslots hbuild with
      hfail | ⟨he, hl', hclass, hname⟩
    · exact .inl hfail
    · exact .inr ⟨_, ⟨_, rfl⟩, he, hl', .function hclass,
        fun k hk => h.allows_rows ⟨_, s.rows⟩ hm hl.cells_le (fun _ => .inl) _ hk,
        fun k hk => (show k = _ from hk) ▸ hl.cells_le, hname⟩

/-- A class that is made below a class of a serving host is entered with nothing that was declared. -/
theorem advances_subclass_serving (h : w.Follows l C)
    (hb : Table.find? w.classIds base = some (.made m))
    (hm : l (.cls m) = some (.serving served cell)) (hs : Spares attributes servingNames)
    (hr : (machine.step (.subclass id (some base) name attributes response execute)).exec w = (x, v)) :
    ((∃ f, x = .error f) ∧ ∃ C', w.Advances l C v l C' fun _ => False) ∨
      ∃ n a C', x = .ok .null ∧ w.classes.length ≤ n ∧ a = .serving ⟨.null, .null, none⟩ none ∧
        w.Advances l C v (l.enter (.cls n) a) C' (· = .cls n) ∧
        Table.find? v.classIds id = some (.made n) ∧ v.className (.made n) = name := by
  refine advances_subclass h (exec_subclass hb) hs (by decide) (fun _ hu hnone hslots hbuild => ?_) hr
  cases hu.enters _ _ hm with
  | serving hf =>
    rcases Machine.of_buildServing 999 hf hu.bundled hnone hslots hbuild with
      hfail | ⟨he, hl', hclass, hname⟩
    · exact .inl hfail
    · exact .inr ⟨_, rfl, he, hl', .serving hclass, fun k hk => (nomatch hk), fun k hk => hk.elim,
        hname⟩

theorem advances_subclass_plain (h : w.Follows l C) {below : Option String}
    (hb : (machine.step (.subclass id below name attributes response execute)).exec w = Run.exec (do
      (Machine.nested 999).subclass id b name attributes response execute
      return .null) w)
    (hp : ∀ {u : World} {C₁ : Nat → Prop}, u.Follows l C₁ → u.PlainBase b)
    (hs : Spares attributes plainNames)
    (hr : (machine.step (.subclass id below name attributes response execute)).exec w = (x, v)) :
    ∃ l' C' n, w.Advances l C v l' C' (· = .cls n) := by
  obtain ⟨-, C', ha⟩ | ⟨n, a, C', -, -, -, ha, -⟩ :=
    advances_subclass h hb hs (by decide) (P := (· = .plain)) (fun _ hu hnone hslots hbuild =>
      (Machine.of_buildBare _ (hp hu) hu.bundled hnone hslots hbuild).imp_right
        fun ⟨he, hl, hclass, hname⟩ => ⟨_, rfl, he, hl, .plain hclass, fun _ hk => hk.elim,
          fun _ hk => hk.elim, hname⟩) hr
  · exact ⟨l, C', 0, ha.mono fun _ => False.elim⟩
  · exact ⟨_, C', n, ha⟩

/-! ## Declarations on classes -/

variable {c : String} {n : Nat} {a : Account} {args : List Literal} {named : Literal.Rows}

theorem enters_titling (h : w.Enters C (.cls n) a) (hp : a ≠ .plain) {name : String}
    (hname : name ∈ ["tool_name", "description"]) :
    ∃ title description method, w.Titled n title description C ∧ method ∈ Machine.titling ∧
      ∃ k, w.find? (.made n) name = some (k, .ofClass (.bundled (.host method))) := by
  have found {methods : List (String × HostMethod)} {method : HostMethod}
      (hm : w.HasMethods (.made n) methods) (hin : (name, method) ∈ methods) :
      ∃ k, w.find? (.made n) name = some (k, .ofClass (.bundled (.host method))) := by
    obtain ⟨k, hk⟩ := hm.finds (name, method) hin
    exact ⟨_, hk⟩
  simp only [List.mem_cons, List.not_mem_nil, or_false] at hname
  cases h with
  | function h =>
    rcases hname with rfl | rfl
    · exact ⟨_, _, .functionName, h.toTitled, by decide, found h.methods (by decide)⟩
    · exact ⟨_, _, .description, h.toTitled, by decide, found h.methods (by decide)⟩
  | serving h =>
    rcases hname with rfl | rfl
    · exact ⟨_, _, .servedName, h.toTitled, by decide, found h.methods (by decide)⟩
    · exact ⟨_, _, .description, h.toTitled, by decide, found h.methods (by decide)⟩
  | plain => exact absurd rfl hp

theorem advances_titling (h : w.Follows l C) (hc : Table.find? w.classIds c = some (.made n))
    (hn : l (.cls n) = some a) {name : String} (hname : name ∈ ["tool_name", "description"])
    (hr : (machine.step (.callClass c name args named)).exec w = (x, v)) :
    v.names = w.names ∧ ∃ a' C', w.Advances l C v (l.enter (.cls n) a') C' (· = .cls n) ∧
      (a' = a ∨ ∃ key y, a' = a.declare key y) := by
  rw [exec_callClass hc] at hr
  have plain : Machine.Plain name := by
    simp only [List.mem_cons, List.not_mem_nil, or_false] at hname
    rcases hname with rfl | rfl <;> exact ⟨by decide, by decide⟩
  by_cases hp : a = .plain
  · subst hp
    cases h.enters _ _ hn with
    | plain hf =>
    rw [show ((Machine.nested 999).callAttribute (World.classValue (.made n)) name args named).exec w =
      (.error (.noAttribute (.cls (w.className (.made n))) name), w) by
        unfold Machine.callAttribute
        rw [Run.exec_bind, Machine.exec_reachNone _ plain (hf.lacks name hname)]] at hr
    cases hr
    exact ⟨rfl, _, C, (World.Advances.refl h _).entered hn, .inl rfl⟩
  obtain ⟨-, -, method, -, hm, hfound⟩ := enters_titling (h.enters _ _ hn) hp hname
  have outside : method ∉ Machine.ofObjects := by
    simp only [List.mem_cons, List.not_mem_nil, or_false, Machine.titling] at hm
    rcases hm with rfl | rfl | rfl <;> decide
  obtain ⟨f, -, hg⟩ | ⟨u, u₁, xs, rows, hxs, hrows, hr⟩ :=
    Machine.callMethod_cases 998 h.data plain outside hfound hr
  · exact ⟨hg.later.names, a, _, (h.advances_gains hg).entered hn, .inl rfl⟩
  obtain ⟨hg, hxs, hrows⟩ := h.data.written hxs hrows
  have ha := h.advances_gains hg
  obtain ⟨_, _, _, titled, -⟩ := enters_titling (ha.follows.enters _ _ hn) hp hname
  rcases Machine.of_titling _ hg.data titled hm (fun y hy => (hxs y hy).1)
    (fun row hr => (hrows row hr).1) hr with rfl | ⟨key, hk, y, hy, rfl⟩
  · exact ⟨hg.later.names, a, _, ha.entered hn, .inl rfl⟩
  · exact ⟨hg.later.names, _, _, (ha.mono fun _ => False.elim).trans
      (ha.follows.advances_declared hn hp hk hy), .inr ⟨key, y, rfl⟩⟩

/-- What the parameters of a method are bound to when it is called with arguments that are written, and
the world in which these are built. -/
def Binds (w : World) (args : List Literal) (named : Literal.Rows) (method : HostMethod)
    (arg : String → Value) (u : World) : Prop :=
  ∃ u₁ xs rows, (Run.literals args).exec w = (.ok xs, u₁) ∧
    (Run.literalRows named).exec u₁ = (.ok rows, u) ∧
    bindAll method.signature.takes xs rows = .ok arg

/-- A parameter that is declared on a class is entered under the text of its name, in the place of one
of that name; where that fails, nothing is entered. -/
theorem advances_param (h : w.Follows l C) (hc : Table.find? w.classIds c = some (.made n))
    (hn : l (.cls n) = some (.function card s))
    (hr : (machine.step (.callClass c "param" args named)).exec w = (x, v)) :
    v.names = w.names ∧ (((∃ f, x = .error f) ∧ ∃ C', w.Advances l C v l C' fun _ => False) ∨
      ∃ arg u text s' C', x = .ok .null ∧ Binds w args named .param arg u ∧
        u.textOf (arg "name") = .ok text ∧
        w.Advances l C v (l.enter (.cls n) (.function (card.withParameter ⟨text, arg "type",
          arg "desc", arg "required"⟩) s')) C' (· = .cls n)) := by
  rw [exec_callClass hc] at hr
  have found (h : w.FunctionClass n card s C) : ∃ k, w.find? (.made n) "param" =
      some (k, .ofClass (.bundled (.host .param))) := by
    obtain ⟨k, hk⟩ := h.methods.finds ("param", .param) (by decide)
    exact ⟨_, hk⟩
  cases h.enters _ _ hn with
  | function hf =>
  obtain ⟨f, rfl, hg⟩ | ⟨u, u₁, xs, rows, hxs, hrows, hr⟩ := Machine.callMethod_cases 998 h.data
    ⟨by decide, by decide⟩ (by decide) (found hf) hr
  · exact ⟨hg.later.names, .inl ⟨⟨f, rfl⟩, _, h.advances_gains hg⟩⟩
  obtain ⟨hg, hin, hnamed⟩ := h.data.written hxs hrows
  have ha := h.advances_gains hg
  cases ha.follows.enters _ _ hn with
  | function hu =>
  rcases Machine.of_param 996 hu.toFunctionHost ha.follows.bundled hg.data hin hnamed hr with
    ⟨rfl, hx⟩ | ⟨arg, text, rows', rfl, hbind, htext, hl, hs, hnew⟩
  · exact ⟨hg.later.names, .inl ⟨hx, _, ha⟩⟩
  · exact ⟨hl.names.trans hg.later.names, .inr ⟨arg, u, text, _, _, rfl,
      ⟨u₁, xs, rows, hxs, hrows, hbind⟩, htext,
      (ha.mono fun _ => False.elim).trans (ha.follows.advances_param hn hl hs hnew)⟩⟩

end Session

end Toolwright
