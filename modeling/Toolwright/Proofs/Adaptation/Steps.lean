import Toolwright.Proofs.Adaptation.ServedTool

/-!
# Steps that adapt definitions

A session names the class that it makes of a definition. The step leaves everything else as it was, and
what is new is a tool that has taken over what the definition declared.
-/

namespace Toolwright

set_option autoImplicit false

namespace World

/-- What is given as a base: nothing, or the class that a name stands for. -/
def baseGiven? (w : World) : Option String → Option Value
  | none => some .null
  | some id => (Table.find? w.classIds id).map classValue

def baseArguments (x : Value) : Option String → Named
  | none => []
  | some _ => [("base", x)]

section Named

variable {w : World} {C : Nat → Prop} {n : Nat} {b : ClassRef}

theorem ClassAt.named {name : String} {own : String → Option Attribute}
    (h : w.ClassAt n name b own) (names : Names) : (w.named names).ClassAt n name b own :=
  ⟨h.cls, h.opens⟩

theorem HasMethods.named {methods : List (String × HostMethod)} (h : w.HasMethods b methods)
    (names : Names) : (w.named names).HasMethods b methods := ⟨h.rooted, h.finds⟩

theorem Shelves.named {s : Shelf} {t : ParameterTable} (h : w.Shelves s t C) (names : Names) :
    (w.named names).Shelves s t C where
  cell := h.cell
  rows := h.rows.imp fun _ _ hr => ⟨hr.key, hr.name, hr.object.named names⟩
  names := h.names
  cells := h.cells
  apart := h.apart
  values := h.values

theorem FunctionBase.named {s : Shelf} {t : ParameterTable} (h : w.FunctionBase b s t C)
    (names : Names) : (w.named names).FunctionBase b s t C where
  toHasMethods := h.toHasMethods.named names
  told := h.told
  fields := h.fields
  parameters := h.parameters
  shelf := h.shelf.named names

theorem ServingBase.named (h : w.ServingBase b) (names : Names) : (w.named names).ServingBase b where
  toHasMethods := h.toHasMethods.named names
  untold := h.untold

theorem SchemaAt.named {q : SchemaPlace} {properties : Named} {required : List String}
    (h : w.SchemaAt q properties required C) (names : Names) :
    (w.named names).SchemaAt q properties required C :=
  ⟨h.object.named names, h.properties, h.required, h.apart, h.data⟩

end Named

end World

namespace Machine

variable {w v : World} {n : Nat} {b : ClassRef} {p : Draft} {D : Definition Stored}
  {C own : Nat → Prop}

/-- What a definition was adapted to: a tool of a function-calling host. -/
structure FunctionTool (w : World) (n : Nat) (b : ClassRef) (p : Draft) (D : Definition Stored)
    (reserved : List String) (text : String) (names : List String) (s : Shelf) (t : ParameterTable)
    (C : Nat → Prop) : Prop where
  tool : ∃ own, w.ClassAt n (Naming.className text "") b own ∧
    ToolAttributes D p reserved text own
  furnished : Furnished w n s (declaredTable (D.params.zip names) t) C

theorem FunctionTool.named {reserved names : List String} {text : String} {s : Shelf}
    {t : ParameterTable} (h : FunctionTool w n b p D reserved text names s t C)
    (ids : World.Names) : FunctionTool (w.named ids) n b p D reserved text names s t C where
  tool := by
    obtain ⟨own, hc, ha⟩ := h.tool
    exact ⟨own, hc.named ids, ha⟩
  furnished :=
    { methods := h.furnished.methods.named ids
      parameters := h.furnished.parameters
      shelf := h.furnished.shelf.named ids }

theorem ServedTool.named {indent : Value} {text : String} {s : InputSchema}
    (h : ServedTool w n b p D indent text s C) (ids : World.Names) :
    ServedTool (w.named ids) n b p D indent text s C where
  helpers := by
    obtain ⟨own, hc, ha⟩ := h.helpers
    exact ⟨own, hc.named ids, ha⟩
  tool := by
    obtain ⟨own, q, properties, hc, ha, hs, hrest⟩ := h.tool
    exact ⟨own, q, properties, hc.named ids, ha, hs.named ids, hrest.1,
      hrest.2.properties, hrest.2.required⟩

theorem reservedNames_later {v : World} {own : Nat → Prop} (hl : w.Later v own) (hb : w.Rooted b) :
    reservedNames v (World.classValue b) = reservedNames w (World.classValue b) := by
  unfold reservedNames World.classValue
  simp only [hl.attributeNames hb]

/-! ## Configurations -/

section Settings

variable {ρ : Renaming} {e : Extent}

theorem Build.givenOr_agree (l : Option Literal) (standard : Value)
    (hs : ∀ e, standard.Within e)
    (hr : standard.rename ρ = standard) (low : Nat) :
    Build.Agree ρ low (fun k a b => (a.getD standard).Within (e.upTo k) ∧
      b.getD standard = (a.getD standard).rename ρ) (l.mapM (·.build)) (l.mapM (·.build)) := by
  cases l with
  | none => exact Build.Agree.pure fun k _ => ⟨hs _, hr.symm⟩
  | some l =>
    rw [Option.mapM_some, map_eq_pure_bind]
    refine Build.Agree.bind (Literal.build_agree (e := e) l low) ?_
    rintro k a _ _ ⟨ha, rfl⟩
    exact Build.Agree.pure fun k' hk => ⟨ha.mono (e.upTo_mono hk), rfl⟩

def Config.fields (c : Config) : Named :=
  [("json_indent", c.jsonIndent), ("debug", c.debug), ("log_file", c.logFile)]

theorem ConfigDraft.build_agree (draft : ConfigDraft) (low : Nat) :
    Build.Agree ρ low (fun k c c' => Named.Within (e.upTo k) (Config.fields c) ∧
      Config.fields c' = Named.rename ρ (Config.fields c)) draft.build draft.build := by
  unfold ConfigDraft.build
  refine Build.Agree.bind (Build.givenOr_agree (e := e) draft.jsonIndent (.int 2)
    (fun _ => trivial) rfl low) ?_
  rintro k₁ a a' _ ⟨ha, ha'⟩
  refine Build.Agree.bind (Build.givenOr_agree (e := e) draft.debug (.bool false)
    (fun _ => trivial) rfl k₁) ?_
  rintro k₂ b b' h₂ ⟨hb, hb'⟩
  refine Build.Agree.bind (Build.givenOr_agree (e := e) draft.logFile (.str "")
    (fun _ => trivial) rfl k₂) ?_
  rintro k₃ c c' h₃ ⟨hc, hc'⟩
  apply Build.Agree.pure
  intro k₄ h₄
  refine ⟨?_, ?_⟩
  · intro row hrow
    simp only [Config.fields, List.mem_cons, List.not_mem_nil, or_false] at hrow
    rcases hrow with rfl | rfl | rfl
    · exact ha.mono (e.upTo_mono (by omega))
    · exact hb.mono (e.upTo_mono (by omega))
    · exact hc.mono (e.upTo_mono (by omega))
  · simp only [Config.fields, Named.rename, List.map_cons, List.map_nil, ← ha', ← hb', ← hc']

def settingsFields (draft : ConfigDraft) : Run Named := do
  (Config.fields (← Run.build draft.build)).mapM fun row => do return (row.1, ← Run.share row.2)

theorem settings_eq (draft : ConfigDraft) :
    settings draft = settingsFields draft >>= Run.objectOf configClass := by
  unfold settings settingsFields Config.fields
  simp only [List.mapM_cons, List.mapM_nil, bind_assoc, pure_bind]

theorem settingsFields_agree {L : Link} (draft : ConfigDraft) :
    L.Agree e L.RenamedNamed (settingsFields draft) (settingsFields draft) := by
  unfold settingsFields
  apply Link.Agree.bind (Link.build_agree (Q := fun e' c c' => Named.Within e' (Config.fields c) ∧
    Config.fields c' = Named.rename L.ρ (Config.fields c))
      (ConfigDraft.build_agree (e := e) draft e.marks) ?_)
  · rintro e₁ c c' _ ⟨hw, hc⟩
    rw [hc]
    unfold Named.rename
    rw [List.mapM_map]
    exact Link.rows_agree (g := fun x => Run.share (x.rename L.ρ)) _
      fun row hr e' he => Link.share_agree row.2 ((hw row hr).mono he)
  · rintro e₁ c c' he ⟨hw, hc⟩
    exact ⟨hw.mono (Extent.upTo_below he), hc⟩

end Settings

def Hosts {α : Type} (r : Run α) : Prop := ∀ w, Hosted (r.exec w).1

section Hosts

variable {α β : Type}

theorem Hosts.pure (a : α) : Hosts (Pure.pure a) := fun _ => .ok a

theorem Hosts.bind {r : Run α} {k : α → Run β} (hr : Hosts r) (hk : ∀ a, Hosts (k a)) :
    Hosts (r >>= k) := by
  intro w
  rw [Run.exec_bind]
  have hw := hr w
  cases h : r.exec w with
  | mk x v =>
    rw [h] at hw
    cases x with
    | error f => exact hw.error
    | ok a => exact hk a v

theorem hosts_kept (x : Value) : Hosts (Run.kept x) := fun _ => .ok _

theorem hosts_objectOf (cls : Nat) (rows : Named) : Hosts (Run.objectOf cls rows) := fun _ => .ok _

mutual

theorem hosts_share (x : Value) : Hosts (Run.share x) := by
  cases x with
  | list xs | set xs => exact (hosts_shareItems xs).bind fun _ => hosts_kept _
  | dict rows => exact (hosts_shareRows rows).bind fun _ => hosts_kept _
  | tuple xs => exact (hosts_shareItems xs).bind fun _ => .pure _
  | mapping rows => exact (hosts_shareRows rows).bind fun _ => .pure _
  | record shape fields => exact (hosts_shareItems fields).bind fun _ => hosts_objectOf _ _
  | _ => exact .pure _

theorem hosts_shareItems (xs : List Value) : Hosts (Run.shareItems xs) := by
  cases xs with
  | nil => exact .pure []
  | cons x xs => exact (hosts_share x).bind fun _ => (hosts_shareItems xs).bind fun _ => .pure _

theorem hosts_shareRows (rows : List (Value × Value)) : Hosts (Run.shareRows rows) := by
  cases rows with
  | nil => exact .pure []
  | cons row rows =>
    obtain ⟨k, v⟩ := row
    exact (hosts_share v).bind fun _ => (hosts_shareRows rows).bind fun _ => .pure _

end

def BuildHosts (b : Build α) : Prop := ∀ n, Hosted (b.run n)

theorem BuildHosts.pure (a : α) : BuildHosts (Pure.pure a) := fun _ => .ok _

theorem BuildHosts.bind {b : Build α} {k : α → Build β} (hb : BuildHosts b)
    (hk : ∀ a, BuildHosts (k a)) : BuildHosts (b >>= k) := by
  intro n
  rw [StateT.run_bind]
  exact (hb n).bind fun a => hk a.1 a.2

theorem hosts_build {b : Build α} (h : BuildHosts b) : Hosts (Run.build b) := by
  refine Hosts.bind (fun _ => .ok _) fun w => Hosts.bind (fun v => ?_) fun _ => fun _ => .ok _
  rw [Run.exec_lift]
  exact h _

theorem hosted_readInteger (x : Value) : Hosted (x.readInteger 10) := by
  unfold Value.readInteger
  split
  · exact .ok _
  · exact .fault (by simp)
  · exact x.hosted_printed.bind fun _ => .fault (by simp)

theorem hosts_freshMark : BuildHosts Literal.freshMark := fun _ => .ok _

theorem hosts_readFloat (text shown : String) : BuildHosts (Literal.readFloat text shown) := by
  refine hosts_freshMark.bind fun mark => ?_
  split
  · exact .pure _
  · exact fun _ => .fault (by simp)

theorem hosts_checkHashable (xs : List Value) : BuildHosts (Literal.checkHashable xs) := by
  unfold Literal.checkHashable
  split
  · exact .pure _
  · exact fun _ => .fault (by simp)

mutual

theorem hosts_literal (l : Literal) : BuildHosts l.build := by
  cases l with
  | numeral digits =>
    exact BuildHosts.bind (fun _ => (hosted_readInteger _).map) fun _ => .pure _
  | float text => exact hosts_readFloat _ _
  | list items | tuple items => exact (hosts_items items).bind fun _ => .pure _
  | dict rows | mapping rows => exact (hosts_rows rows).bind fun _ => .pure _
  | set items | frozenset items =>
    exact (hosts_items items).bind fun _ => (hosts_checkHashable _).bind fun _ => .pure _
  | token text | mute reason => exact hosts_freshMark.bind fun _ => .pure _
  | _ => exact .pure _

theorem hosts_items (items : List Literal) : BuildHosts (Literal.buildItems items) := by
  cases items with
  | nil => exact .pure []
  | cons item items =>
    exact (hosts_literal item).bind fun _ => (hosts_items items).bind fun _ => .pure _

theorem hosts_rows (rows : List (Literal × Literal)) : BuildHosts (Literal.buildRows rows) := by
  cases rows with
  | nil => exact .pure []
  | cons row rows =>
    obtain ⟨key, item⟩ := row
    exact (hosts_literal key).bind fun _ => (hosts_literal item).bind fun _ =>
      (hosts_checkHashable _).bind fun _ => (hosts_rows rows).bind fun _ => .pure _

end

theorem hosts_settings (draft : ConfigDraft) : Hosts (settings draft) := by
  have given (l : Option Literal) : BuildHosts (l.mapM (·.build)) := by
    cases l with
    | none => exact .pure _
    | some l =>
      rw [Option.mapM_some, map_eq_pure_bind]
      exact (hosts_literal l).bind fun _ => .pure _
  have built : BuildHosts draft.build :=
    (given _).bind fun _ => (given _).bind fun _ => (given _).bind fun _ => .pure _
  exact (hosts_build built).bind fun _ => (hosts_share _).bind fun _ => (hosts_share _).bind fun _ =>
    (hosts_share _).bind fun _ => hosts_objectOf _ _

end Hosts

theorem gains_settings (hd : w.HoldsData C) {draft : ConfigDraft} {f : Fault}
    (h : (settings draft).exec w = (.error f, v)) : w.Gains C v := by
  rw [settings_eq] at h
  have hg := hd.gains (Q := Link.RenamedNamed) (fun L e => settingsFields_agree draft)
  rcases Run.exec_bind_cases h with ⟨g, -, hfields⟩ | ⟨_, _, _, hlast⟩
  · rwa [hfields] at hg
  · cases hlast

theorem of_settings (hd : w.HoldsData C) {draft : ConfigDraft} {x : Value}
    (h : (settings draft).exec w = (.ok x, v)) :
    ∃ u fields indent, w.Gains C u ∧ v = u.withObjectOf configClass fields ∧
      x = objectValue u.objects.length ∧ Table.find? fields "json_indent" = some indent := by
  rw [settings_eq] at h
  obtain ⟨fields, u, hfields, h⟩ := Run.of_exec_bind h
  have hg := hd.gains (Q := Link.RenamedNamed) (fun L e => settingsFields_agree draft)
  rw [hfields] at hg
  obtain ⟨c, _, _, hrows⟩ := Run.of_exec_bind hfields
  obtain ⟨hkeys, _⟩ := Run.isShared_rows hrows
  cases h
  match fields, hkeys with
  | [(_, a), (_, b), (_, c)], hkeys =>
    cases hkeys
    exact ⟨u, _, a, hg, rfl, rfl, rfl⟩

theorem exec_indentOf (m : Machine) {o s : Nat} {fields : Named} {indent : Value} (hb : w.Bundled)
    (h : w.ObjectAt o configClass s fields)
    (hx : Table.find? fields "json_indent" = some indent) :
    (m.indentOf (objectValue o)).exec w = (.ok indent, w) := by
  have plain (name : String) (hn : name ∈ World.untouched) : w.special? (objectValue o) name = none :=
    special?_none h.classOf fun k a => hb.untouched (by decide) (by decide) hn k a
  have truth : (m.truthy (objectValue o)).exec w = (.ok true, w) := by
    unfold truthy
    rw [Run.exec_bind, Run.exec_world]
    dsimp only
    rw [plain "__bool__" (by decide), plain "__len__" (by decide)]
    rfl
  unfold indentOf
  rw [Run.exec_bind, truth]
  exact exec_askSet m h hb (by decide) (by decide) (by decide) hx

theorem exec_indentOf_null (m : Machine) (w : World) :
    (m.indentOf .null).exec w = (.ok (.int 2), w) := by
  rfl

end Machine

namespace Session

variable {w v : World} {d c : String} {p : Draft} {D : Definition Stored} {C : Nat → Prop}

theorem baseIfGiven_cases (w : World) (base : Option String) :
    (w.baseGiven? base = none ∧ ∃ id, (Run.baseIfGiven base).exec w = (.error (.unknownId id), w)) ∨
      ∃ x, w.baseGiven? base = some x ∧ (Run.baseIfGiven base).exec w = (.ok (World.baseArguments x base), w) := by
  cases base with
  | none => exact .inr ⟨.null, rfl, rfl⟩
  | some id =>
    have given : Run.baseIfGiven (some id) = (do
        let c ← Run.classById id
        return [("base", World.classValue c)]) := by
      unfold Run.baseIfGiven Run.classIfGiven
      rw [Option.mapM_some]
      simp only [map_eq_pure_bind, bind_assoc, pure_bind, Option.map_some, Option.toList_some]
    rw [given, Run.exec_bind, exec_classById rfl]
    cases hc : Table.find? w.classIds id with
    | none => exact .inl ⟨by simp [World.baseGiven?, hc], id, rfl⟩
    | some c => exact .inr ⟨World.classValue c, by simp [World.baseGiven?, hc], rfl⟩

theorem exec_bindClass {b : ClassRef} (r : World → ClassRef → Value) :
    Run.exec (do
      let b ← Machine.asClass (World.classValue b)
      Run.bindClass c b
      return r (← Run.world) b) w =
    (.ok (r (w.named { w.names with classes := Table.insert c b w.classIds }) b),
      w.named { w.names with classes := Table.insert c b w.classIds }) :=
  rfl

theorem bindClass_cases {x : Value} (r : World → ClassRef → Value) :
    (∃ b, x = World.classValue b) ∨ Run.exec (do
      let b ← Machine.asClass x
      Run.bindClass c b
      return r (← Run.world) b) w = (.error .mismatch, w) := by
  by_cases hx : ∃ b, x = World.classValue b
  · exact .inl hx
  · refine .inr ?_
    have refused : (Machine.asClass x).exec w = (.error .mismatch, w) := by
      unfold Machine.asClass
      split
      · exact absurd ⟨_, rfl⟩ hx
      · rfl
    rw [Run.exec_bind, refused]

/-- The class that is meant as a base: the one that stands for the host, or the one that is named. -/
def Bases (w : World) (kind : String) (base : Option String) (b : ClassRef) : Prop :=
  match base with
  | none => w.resolveHost kind = some b
  | some id => Table.find? w.classIds id = some b

theorem Bases.exec_requireHost {kind label module : String} {base : Option String} {b : ClassRef}
    {x : Value} (h : Bases w kind base b) (hx : w.baseGiven? base = some x)
    (hv : v.hosts = w.hosts) :
    (Machine.requireHost kind x label module).exec v = (.ok (World.classValue b), v) := by
  cases base with
  | none =>
    cases hx
    have hb : v.resolveHost kind = some b := by
      unfold World.resolveHost
      rw [hv]
      exact h
    unfold Machine.requireHost
    rw [Run.exec_bind, Run.exec_world]
    dsimp only
    rw [hb]
    rfl
  | some id =>
    simp only [World.baseGiven?, show Table.find? w.classIds id = some b from h, Option.map_some,
      Option.some.injEq] at hx
    subst hx
    rfl

theorem Bases.later {kind : String} {base : Option String} {b : ClassRef} {own : Nat → Prop}
    (h : Bases w kind base b) (hl : w.Later v own) : Bases v kind base b := by
  have hids : v.classIds = w.classIds := congrArg World.Names.classes hl.names
  cases base with
  | none =>
    show (Table.find? v.hosts kind).join = some b
    rw [hl.hosts]
    exact h
  | some id =>
    show Table.find? v.classIds id = some b
    rw [hids]
    exact h

/-- A session holds a definition and a class of a function-calling host for it to be adapted to. -/
structure MeetsFunctionHost (w : World) (d : String) (p : Draft) (D : Definition Stored)
    (C : Nat → Prop) (base : Option String) (b : ClassRef) (s : Shelf) (t : ParameterTable) :
    Prop extends Holds w d p D C where
  host : w.FunctionBase b s t C
  reads : ∀ k a, w.find? b "__getattribute__" ≠ some (.made k, a)
  bases : Bases w llmHost base b
  shelfApart : ∀ n ∈ s.cells, ¬ p.changes n

/-- A session holds a definition and a class of a serving host for it to be adapted to. -/
structure MeetsServingHost (w : World) (d : String) (p : Draft) (D : Definition Stored)
    (C : Nat → Prop) (base : Option String) (b : ClassRef) : Prop extends Holds w d p D C where
  host : w.ServingBase b
  bases : Bases w mcpHost base b

section Meets

variable {base : Option String} {b : ClassRef} {s : Shelf} {t : ParameterTable} {p' : Draft}
  {D' : Definition Stored} {C' : Nat → Prop}

theorem MeetsFunctionHost.further (h : MeetsFunctionHost w d p D C base b s t)
    (hf : w.Further v p p' D' C C') : MeetsFunctionHost v d p' D' C' base b s t where
  toHolds := h.toHolds.further hf
  host :=
    { hf.later.functionBase h.host h.data h.shelfApart h.not_changes with
      shelf := (hf.later.shelves h.host.shelf h.data h.shelfApart h.not_changes).mono hf.data
        fun n hn hc => (hf.fresh n hc).elim (h.host.shelf.apart n hn) fun hle =>
          Nat.not_lt_of_le hle (h.host.shelf.lt hn) }
  reads k a := by
    rw [hf.later.find? h.host.rooted]
    exact h.reads k a
  bases := h.bases.later hf.later
  shelfApart n hn := hf.changes ▸ h.shelfApart n hn

theorem MeetsServingHost.further (h : MeetsServingHost w d p D C base b)
    (hf : w.Further v p p' D' C C') : MeetsServingHost v d p' D' C' base b where
  toHolds := h.toHolds.further hf
  host := hf.later.servingBase h.host
  bases := h.bases.later hf.later

end Meets

theorem rooted_start {k : Nat} (hk : k < 9) : start.Rooted (.made k) := by
  intro n hn
  have lineage : start.lineage (.made k) = [.made k, .builtIn .object] := by
    have all : ∀ k < 9, start.lineage (.made k) = [.made k, .builtIn .object] := by decide
    exact all k hk
  rw [lineage] at hn
  obtain rfl : n = k := by simpa using hn
  exact ⟨_, List.getElem?_eq_getElem hk⟩

/-- Each session starts with a class of a function-calling host, which has no parameters. -/
theorem functionBase_start :
    start.FunctionBase functionClassRef ⟨0, []⟩ [] (fun _ => False) where
  rooted := rooted_start (by decide)
  finds row hr := by
    simp only [functionMethods, List.mem_cons, List.not_mem_nil, or_false] at hr
    rcases hr with rfl | rfl | rfl | rfl | rfl | rfl <;> exact ⟨0, rfl⟩
  told := ⟨0, rfl⟩
  fields := by decide
  parameters := ⟨0, rfl⟩
  shelf :=
    { cell := rfl
      rows := .nil
      names := List.nodup_nil
      cells := List.not_mem_nil
      apart := fun _ _ => id
      values := by simp }

theorem reads_start (k : Nat) (a : Attribute) :
    start.find? functionClassRef "__getattribute__" ≠ some (.made k, a) := by
  intro h
  cases h

theorem servingBase_start : start.ServingBase servingClassRef where
  rooted := rooted_start (by decide)
  finds row hr := by
    simp only [servingMethods, List.mem_cons, List.not_mem_nil, or_false] at hr
    rcases hr with rfl | rfl | rfl | rfl <;> exact ⟨1, rfl⟩
  untold k a h := by cases h

theorem perform_define_meets (hb : w.Bundled) (hd : w.HoldsData C) {base base' : Option String}
    {b b' : ClassRef} {s : Shelf} {t : ParameterTable} (hf : w.FunctionBase b s t C)
    (hreads : ∀ k a, w.find? b "__getattribute__" ≠ some (.made k, a))
    (hbase : Bases w llmHost base b) (hs : w.ServingBase b') (hbase' : Bases w mcpHost base' b')
    (d : String) (name : Literal) {a : Answer}
    (ha : (perform w (.define d name none)).1.outcome = .ok a) :
    ∃ p x C', MeetsFunctionHost (perform w (.define d name none)).2 d p { name := x } C' base b s t ∧
      MeetsServingHost (perform w (.define d name none)).2 d p { name := x } C' base' b' := by
  obtain ⟨p, x, C', h, hC, hnew, hplaces, u, hlater, hu⟩ := perform_define hb hd d name ha
  have hbase₁ := hbase.later hlater
  have hbase₂ := hbase'.later hlater
  refine ⟨p, x, C', { h with host := ?_, reads := ?_, bases := ?_, shelfApart := ?_ },
    { h with host := ?_, bases := ?_ }⟩
  · rw [hu]
    exact { (hlater.functionBase hf hd (fun _ _ => id) (fun _ _ => id)).named _ with
      shelf := ((hlater.shelves hf.shelf hd (fun _ _ => id) fun _ _ => id).mono hC fun n hn hc =>
        (hnew n hc).elim (hf.shelf.apart n hn) fun hle =>
          Nat.not_lt_of_le hle (hf.shelf.lt hn)).named _ }
  · intro k a
    rw [hu]
    show u.find? b "__getattribute__" ≠ _
    rw [hlater.find? hf.rooted]
    exact hreads k a
  · rw [hu]
    cases base <;> exact hbase₁
  · exact fun n hn hc => Nat.not_lt_of_le (hplaces n hc) (hf.shelf.lt hn)
  · rw [hu]
    exact (hlater.servingBase hs).named _
  · rw [hu]
    cases base' <;> exact hbase₂

theorem exec_definitionById (h : Holds w d p D C) :
    (Run.definitionById (some d)).exec w = (.ok p.value, w) := by
  unfold Run.definitionById
  rw [Run.exec_bind, Run.exec_world]
  dsimp only
  unfold Run.resolveId
  rw [Run.exec_bind, Run.exec_world]
  dsimp only
  rw [h.named]
  rfl

theorem of_perform_ok {step : Step} {a : Answer} (h : (perform w step).1.outcome = .ok a) :
    ∃ x, (machine.step step).exec { w with log := [] } = (.ok x, (perform w step).2) := by
  rw [perform_eq]
  rw [perform_outcome] at h
  cases hr : (machine.step step).exec { w with log := [] } with
  | mk result v =>
    rw [hr] at h
    cases result with
    | error f => cases h
    | ok x => exact ⟨x, rfl⟩

/-- A step that adapts a definition for a function-calling host, where its base is there. -/
theorem exec_stepLlm (h : Holds w d p D C) {base : Option String} {given : Value}
    (hgiven : w.baseGiven? base = some given) :
    (machine.step (.toLlm (some d) c base)).exec w = Run.exec (do
      let cls ← (Machine.nested 998).adaptLlm p.value given
      let b ← Machine.asClass cls
      Run.bindClass c b
      return classReport (← Run.world) b []) w := by
  have hbase : (Run.baseIfGiven base).exec w = (.ok (World.baseArguments given base), w) := by
    rcases baseIfGiven_cases w base with ⟨hnone, -⟩ | ⟨x, hx, hbase⟩
    · cases hnone.symm.trans hgiven
    · cases hx.symm.trans hgiven
      exact hbase
  have made : ((Machine.nested 998).applyDefinitionMethod .toFunctionTool [p.value]
      (World.baseArguments given base)) = (Machine.nested 998).adaptLlm p.value given := by
    cases base with
    | none =>
      cases hgiven
      rfl
    | some id => rfl
  show Run.exec (do
    let d ← Run.definitionById (some d)
    let cls ← (Machine.nested 999).send d "to_llm_tool" [] (← Run.baseIfGiven base)
    let b ← Machine.asClass cls
    Run.bindClass c b
    return classReport (← Run.world) b []) w = _
  rw [Run.exec_bind, exec_definitionById h]
  dsimp only
  rw [Run.exec_bind, hbase]
  dsimp only
  rw [Run.exec_bind, Machine.exec_sendDefinition 998 .toFunctionTool h.toDrafts h.bundled rfl rfl,
    made, ← Run.exec_bind]

/-- A step that adapts a definition for a function-calling host gives a name to the class that was
made, or it fails and gives none. -/
theorem stepLlm_cases (h : Holds w d p D C) {base : Option String} {x : Except Fault Value}
    (hr : (machine.step (.toLlm (some d) c base)).exec w = (x, v)) :
    (v = w ∧ w.baseGiven? base = none ∧ (∃ f, x = .error f) ∧ Hosted x) ∨
      ∃ given y u, w.baseGiven? base = some given ∧
      ((Machine.nested 998).adaptLlm p.value given).exec w = (y, u) ∧
      ((v = u ∧ ∃ f, x = .error f ∧ (y = .error f ∨ f = .mismatch ∧ ∃ a, y = .ok a)) ∨ ∃ b a, y = .ok (World.classValue b) ∧ x = .ok a ∧
        v = u.named { u.names with classes := Table.insert c b u.classIds }) := by
  rcases baseIfGiven_cases w base with ⟨hnone, id, hf⟩ | ⟨given, hgiven, -⟩
  · have step : machine.step (.toLlm (some d) c base) = (do
        let d ← Run.definitionById (some d)
        let cls ← (Machine.nested 999).send d "to_llm_tool" [] (← Run.baseIfGiven base)
        let b ← Machine.asClass cls
        Run.bindClass c b
        return classReport (← Run.world) b []) := rfl
    rw [step, Run.exec_bind, exec_definitionById h] at hr
    dsimp only at hr
    rw [Run.exec_bind, hf] at hr
    cases hr
    exact .inl ⟨rfl, hnone, ⟨_, rfl⟩, .fault (by simp)⟩
  rw [exec_stepLlm h hgiven, Run.exec_bind] at hr
  cases hy : ((Machine.nested 998).adaptLlm p.value given).exec w with
  | mk y u =>
    refine .inr ⟨given, y, u, hgiven, hy, ?_⟩
    rw [hy] at hr
    cases y with
    | error f =>
      cases hr
      exact .inl ⟨rfl, f, rfl, .inl rfl⟩
    | ok cls =>
      rcases bindClass_cases (w := u) (c := c) (x := cls) fun w b => classReport w b [] with
        ⟨b, rfl⟩ | hf
      · cases (exec_bindClass fun w b => classReport w b []).symm.trans hr
        exact .inr ⟨b, _, rfl, rfl, rfl⟩
      · cases hf.symm.trans hr
        exact .inl ⟨rfl, _, rfl, .inr ⟨rfl, _, rfl⟩⟩

/-- A step that adapts a definition for a function-calling host has named the class that was made. -/
theorem of_stepLlm (h : Holds w d p D C) {base : Option String} {a : Value}
    (hr : (machine.step (.toLlm (some d) c base)).exec w = (.ok a, v)) :
    ∃ given b u, w.baseGiven? base = some given ∧
      ((Machine.nested 998).adaptLlm p.value given).exec w = (.ok (World.classValue b), u) ∧
      v = u.named { u.names with classes := Table.insert c b u.classIds } := by
  obtain ⟨-, -, ⟨f, ⟨⟩⟩, -⟩ | ⟨given, y, u, hgiven, hy, ⟨-, f, ⟨⟩, -⟩ | ⟨b, a, rfl, -, hv⟩⟩ :=
    stepLlm_cases h hr
  exact ⟨given, b, u, hgiven, hy, hv⟩

/-- A definition that a session adapted for a function-calling host became a tool, and is still what
it was. -/
theorem perform_toLlm (h : Holds w d p D C) {base : Option String} {b : ClassRef} {s : Shelf}
    {t : ParameterTable} (hbase : w.FunctionBase b s t C) (hb : Bases w llmHost base b) {a : Answer}
    (ha : (perform w (.toLlm (some d) c base)).1.outcome = .ok a) :
    ∃ u text names rows, w.Later u (fun _ => False) ∧
      (perform w (.toLlm (some d) c base)).2 =
        u.named { u.names with classes := Table.insert c (.made w.classes.length) w.classIds } ∧
      w.textOf D.name = .ok text ∧ w.textsOf D.params = .ok names ∧
      Machine.FunctionTool u w.classes.length b p D
        (Machine.reservedNames w (World.classValue b)) text names ⟨w.cells.length, rows⟩ t C ∧
      ∀ row ∈ rows, row ∈ s.rows ∨ w.cells.length ≤ row.2.2 := by
  let w₀ : World := { w with log := [] }
  have hl : w.Later w₀ (fun _ => False) := (World.Later.refl w _).log []
  obtain ⟨x, hr⟩ := of_perform_ok ha
  obtain ⟨given, made, u, hgiven, hmade, hv⟩ := of_stepLlm (h.log []) hr
  have hbase₀ : w₀.FunctionBase b s t C :=
    hl.functionBase hbase h.data (fun _ _ => id) (fun _ _ => id)
  obtain ⟨text, names, rows, own, hcls, htext, hnames, hlater, hclass, hattributes, hfurnished,
    hrows⟩ := Machine.of_adaptLlm 995 (h.log []).toDeclares hbase₀
      (hb.exec_requireHost hgiven rfl) hmade
  cases hcls
  have hids : u.classIds = w.classIds := congrArg World.Names.classes hlater.names
  refine ⟨u, text, names, rows, hl.trans hlater fun _ hn _ => hn, ?_, htext, hnames,
    ⟨⟨own, hclass, hattributes⟩, hfurnished⟩, hrows⟩
  rw [hv, hids]

/-- A step that adapts a definition for a function-calling host warns of the helpers with reserved names,
and of nothing else. -/
theorem warned_toLlm (h : Holds w d p D C) {base : Option String} {b : ClassRef} {s : Shelf}
    {t : ParameterTable} (hbase : w.FunctionBase b s t C) (hb : Bases w llmHost base b) {a : Answer}
    (ha : (perform w (.toLlm (some d) c base)).1.outcome = .ok a) :
    Machine.collisionWarnings w D.name (collisions (Table.keys D.merged)
      (Machine.reservedNames w (World.classValue b))) =
        .ok (warnings (perform w (.toLlm (some d) c base)).1.log) := by
  let w₀ : World := { w with log := [] }
  have hl : w.Later w₀ (fun _ => False) := (World.Later.refl w _).log []
  obtain ⟨x, hr⟩ := of_perform_ok ha
  obtain ⟨given, made, u, hgiven, hmade, hv⟩ := of_stepLlm (h.log []) hr
  have hbase₀ : w₀.FunctionBase b s t C :=
    hl.functionBase hbase h.data (fun _ _ => id) (fun _ _ => id)
  obtain ⟨warned, hwarned, hlog⟩ := Machine.warned_adaptLlm 995 (h.log []).toDeclares hbase₀
    (hb.exec_requireHost hgiven rfl) hmade
  have told : (perform w (.toLlm (some d) c base)).1.log = u.log :=
    (congrArg World.log hv : (perform w (.toLlm (some d) c base)).2.log = _)
  rw [told, hlog, List.nil_append, Machine.warnings_collisions hwarned]
  exact hwarned

/-- What a step passes on as a configuration, and the world in which it was made. -/
def Configures (w : World) (config : Option ConfigDraft) (x : Value) (v : World) : Prop :=
  match config with
  | none => x = .null ∧ v = w
  | some draft => (Machine.settings draft).exec w = (.ok x, v)

def configArguments (x : Value) : Option ConfigDraft → Named
  | none => []
  | some _ => [("config", x)]

theorem Configures.indents (hd : w.HoldsData C) (hb : w.Bundled) {config : Option ConfigDraft}
    {x : Value} (h : Configures w config x v) : w.Later v (fun _ => False) ∧
      ∃ indent, ∀ m : Machine, (m.indentOf x).exec v = (.ok indent, v) := by
  cases config with
  | none =>
    obtain ⟨rfl, rfl⟩ := h
    exact ⟨World.Later.refl _ _, .int 2, fun m => m.exec_indentOf_null _⟩
  | some draft =>
    obtain ⟨u, fields, indent, hg, rfl, rfl, hindent⟩ := Machine.of_settings hd h
    have hl : w.Later (u.withObjectOf configClass fields) (fun _ => False) :=
      hg.later.withObjectOf _ _
    exact ⟨hl, indent, fun m => m.exec_indentOf (hl.bundled hb)
      (World.objectAt_withObjectOf u configClass fields) hindent⟩

/-- A step that adapts a definition for a serving host gives a name to the class that was made, or it
fails and gives none. -/
theorem stepMcp_cases (h : Holds w d p D C) {base : Option String} {config : Option ConfigDraft}
    {x : Except Fault Value}
    (hr : (machine.step (.toMcp (some d) c base config)).exec w = (x, v)) :
    (w.Gains C v ∧ (∃ f, x = .error f) ∧ Hosted x ∧
      (w.baseGiven? base ≠ none → ∀ settings u, ¬ Configures w config settings u)) ∨
      ∃ given settings u₁ y u, w.baseGiven? base = some given ∧ Configures w config settings u₁ ∧
      ((Machine.nested 998).adaptMcp p.value given settings).exec u₁ = (y, u) ∧
      ((v = u ∧ ∃ f, x = .error f ∧ (y = .error f ∨ f = .mismatch ∧ ∃ a, y = .ok a)) ∨ ∃ b a, y = .ok (World.classValue b) ∧ x = .ok a ∧
        v = u.named { u.names with classes := Table.insert c b u.classIds }) := by
  have step : machine.step (.toMcp (some d) c base config) = (do
      let d ← Run.definitionById (some d)
      let base ← Run.baseIfGiven base
      let config ← config.mapM fun draft => do return ("config", ← Machine.settings draft)
      let cls ← (Machine.nested 999).send d "to_mcp_tool" [] (base ++ config.toList)
      let b ← Machine.asClass cls
      Run.bindClass c b
      let w ← Run.world
      return classReport w b [("helper_class", helperClassName w b)]) := rfl
  rw [step, Run.exec_bind, exec_definitionById h] at hr
  dsimp only at hr
  rcases baseIfGiven_cases w base with ⟨hnone, id, hf⟩ | ⟨given, hgiven, hbase⟩
  · rw [Run.exec_bind, hf] at hr
    cases hr
    exact .inl ⟨World.Gains.refl h.data, ⟨_, rfl⟩, .fault (by simp), (absurd hnone ·)⟩
  rw [Run.exec_bind, hbase] at hr
  dsimp only at hr
  rcases Run.exec_bind_cases hr with ⟨f, rfl, hconfig⟩ | ⟨made, u₁, hconfig, hr⟩
  · cases config with
    | none => cases hconfig
    | some draft =>
      rw [Option.mapM_some, map_eq_pure_bind, bind_assoc] at hconfig
      rcases Run.exec_bind_cases hconfig with ⟨g, hg, hs⟩ | ⟨_, _, _, hlast⟩
      · cases hg
        have hosted := Machine.hosts_settings draft w
        rw [hs] at hosted
        refine .inl ⟨Machine.gains_settings h.data hs, ⟨f, rfl⟩, hosted.error, fun _ settings u hc => ?_⟩
        cases hs.symm.trans hc
      · cases hlast
  obtain ⟨x', hx, hnamed⟩ : ∃ x, Configures w config x u₁ ∧
      made.toList = configArguments x config := by
    cases config with
    | none =>
      cases hconfig
      exact ⟨.null, ⟨rfl, rfl⟩, rfl⟩
    | some draft =>
      rw [Option.mapM_some, map_eq_pure_bind, bind_assoc] at hconfig
      obtain ⟨x, _, hx, hlast⟩ := Run.of_exec_bind hconfig
      cases hlast
      exact ⟨x, hx, rfl⟩
  have hd := (h.unchanged (hx.indents h.data h.bundled).1).declares
  rw [hnamed, Run.exec_bind,
    Machine.exec_sendDefinition 998 .toServedTool hd.toDrafts hd.bundled rfl rfl] at hr
  have made : ((Machine.nested 998).applyDefinitionMethod .toServedTool [p.value]
      (World.baseArguments given base ++ configArguments x' config)) =
        (Machine.nested 998).adaptMcp p.value given x' := by
    cases base with
    | none =>
      cases hgiven
      cases config with
      | none =>
        obtain ⟨rfl, _⟩ := hx
        rfl
      | some draft => rfl
    | some id =>
      cases config with
      | none =>
        obtain ⟨rfl, _⟩ := hx
        rfl
      | some draft => rfl
  rw [made] at hr
  cases hy : ((Machine.nested 998).adaptMcp p.value given x').exec u₁ with
  | mk y u =>
    refine .inr ⟨given, x', u₁, y, u, hgiven, hx, hy, ?_⟩
    rw [hy] at hr
    cases y with
    | error f =>
      cases hr
      exact .inl ⟨rfl, f, rfl, .inl rfl⟩
    | ok cls =>
      rcases bindClass_cases (w := u) (c := c) (x := cls) fun w b =>
        classReport w b [("helper_class", helperClassName w b)] with ⟨b, rfl⟩ | hf
      · cases (exec_bindClass fun w b =>
          classReport w b [("helper_class", helperClassName w b)]).symm.trans hr
        exact .inr ⟨b, _, rfl, rfl, rfl⟩
      · cases hf.symm.trans hr
        exact .inl ⟨rfl, _, rfl, .inr ⟨rfl, _, rfl⟩⟩

/-- A step that adapts a definition for a serving host has named the class that was made. -/
theorem of_stepMcp (h : Holds w d p D C) {base : Option String} {config : Option ConfigDraft}
    {a : Value} (hr : (machine.step (.toMcp (some d) c base config)).exec w = (.ok a, v)) :
    ∃ given x b u₁ u, w.baseGiven? base = some given ∧ Configures w config x u₁ ∧
      ((Machine.nested 998).adaptMcp p.value given x).exec u₁ = (.ok (World.classValue b), u) ∧
      v = u.named { u.names with classes := Table.insert c b u.classIds } := by
  obtain ⟨-, ⟨f, ⟨⟩⟩, -⟩ |
      ⟨given, x, u₁, y, u, hgiven, hx, hy, ⟨-, f, ⟨⟩, -⟩ | ⟨b, a, rfl, -, hv⟩⟩ := stepMcp_cases h hr
  exact ⟨given, x, b, u₁, u, hgiven, hx, hy, hv⟩

/-- A definition that a session adapted for a serving host became a tool, and is still what it was. -/
theorem perform_toMcp (h : Holds w d p D C) {base : Option String} {config : Option ConfigDraft}
    {b : ClassRef} (hbase : w.ServingBase b) (hb : Bases w mcpHost base b) {a : Answer}
    (ha : (perform w (.toMcp (some d) c base config)).1.outcome = .ok a) :
    ∃ u n text s x u₁ indent C', w.Later u (fun _ => False) ∧ w.classes.length ≤ n ∧
      (perform w (.toMcp (some d) c base config)).2 =
        u.named { u.names with classes := Table.insert c (.made (n + 1)) w.classIds } ∧
      Configures { w with log := [] } config x u₁ ∧
      (∀ m : Machine, (m.indentOf x).exec u₁ = (.ok indent, u₁)) ∧
      w.textOf D.name = .ok text ∧ w.servedSchema D.params = .ok s ∧
      u.HoldsData C' ∧ (∀ n, C n → C' n) ∧ (∀ n, C' n → C n ∨ w.cells.length ≤ n) ∧
      Machine.ServedTool u n b p D indent text s C' := by
  let w₀ : World := { w with log := [] }
  have hl : w.Later w₀ (fun _ => False) := (World.Later.refl w _).log []
  obtain ⟨y, hr⟩ := of_perform_ok ha
  obtain ⟨given, x, made, u₁, u, hgiven, hx, hmade, hv⟩ := of_stepMcp (h.log []) hr
  obtain ⟨hl₁, indent, hindent⟩ := hx.indents (h.log []).data (h.log []).bundled
  have hl' : w.Later u₁ (fun _ => False) := hl.trans hl₁ fun _ hn _ => hn
  have hret := hl'.retains h.data fun _ _ => id
  have hd₁ := (h.unchanged hl').declares
  rw [Machine.adaptMcp_eq, Run.exec_bind, hb.exec_requireHost hgiven hl'.hosts] at hmade
  dsimp only at hmade
  rw [Run.exec_bind, hindent] at hmade
  obtain ⟨text, s, C', hcls, htext, hs, hlater, hC', hC, hnew, htool⟩ :=
    Machine.of_adaptServed 995 hd₁ (hl'.servingBase hbase) hmade
  cases hcls
  have hids : u.classIds = w.classIds :=
    congrArg World.Names.classes (hl'.trans hlater fun _ hn _ => hn).names
  refine ⟨u, u₁.classes.length, text, s, x, u₁, indent, C', hl'.trans hlater fun _ hn _ => hn,
    hl'.classes.length_le, ?_, hx, hindent, ?_, ?_, hC', hC, ?_, htool⟩
  · rw [hv, hids]
  · rw [← htext, hret.textOf h.data (h.values _ List.mem_cons_self).1]
  · rw [← hs, hret.servedSchema h.data]
    exact fun spec hs x hx => (h.values x (List.mem_cons_of_mem _ (List.mem_cons_of_mem _
      (List.mem_flatMap.mpr ⟨spec, hs, hx⟩)))).1
  · exact fun n hn => (hnew n hn).imp_right fun hle => Nat.le_trans hl'.cells_le hle

end Session

end Toolwright
