import Toolwright.Proofs.Isolation.Methods

/-!
# Calls in linked worlds

A mapping of arguments becomes named arguments, and the object that it is given to executes on them;
what was given and what came of it is noted under the name of the tool. On two objects of classes
that execute alike this is alike.
-/

namespace Toolwright

set_option autoImplicit false

namespace Link

variable {L : Link} {b b' w v : World} {σ : Nat → Nat} {a a' d d' : Nat} {apart : Nat → Prop}
  {m : Machine} {e : Extent}

/-! ## Rows of a value -/

/-- The kinds of what a run can get hold of, those of dictionaries and mappings apart. -/
def rowless : List Kind :=
  [.null, .bool, .int, .float, .text, .bytes, .list, .tuple, .set, .frozenset, .object, .token,
    .mute, .function, .method]

theorem rowless_items :
    rowless.all (fun k => (k :: k.above).all fun j => (j.attribute? "items").isNone) = true := by
  decide

theorem find?_items {k : Kind} (hk : k ∈ rowless) (w : World) :
    w.find? (.builtIn k) "items" = none := by
  rw [World.find?_builtIn, List.findSome?_eq_none_iff]
  intro j hj
  have h := List.all_eq_true.mp (List.all_eq_true.mp rowless_items k hk) j hj
  rw [Option.isNone_iff_eq_none.mp h]
  rfl

theorem kind_rowless {x : Value} (hx : x.Within e) (hr : x.rows? = none) : x.kind ∈ rowless := by
  cases x with
  | dict => cases hr
  | mapping => cases hr
  | record => exact hx.elim
  | opaqueRef o =>
    cases o with
    | place p =>
      cases p with
      | cell n => simp [Value.kind, rowless]
      | attributes => exact hx.elim
      | shown => exact hx.elim
    | cls => exact hx.elim
    | object => exact hx.elim
    | view => exact hx.elim
    | cursor => exact hx.elim
    | _ => simp [Value.kind, rowless]
  | _ => simp [Value.kind, rowless]

theorem Linked.classOf_rowless (h : L.Linked w v) {x : Value} (hx : x.Within (L.extent w))
    (hr : (w.followed x).rows? = none) :
    ∃ k ∈ rowless, w.classOf x = .builtIn k ∧ v.classOf (x.rename L.ρ) = .builtIn k := by
  obtain ⟨k, hk, hk'⟩ := h.classOf_within hx
  refine ⟨k, ?_, hk, hk'⟩
  have hkind := kind_rowless (h.followed_within hx) hr
  cases x with
  | opaqueRef o =>
    cases o with
    | place p =>
      cases p with
      | cell n =>
        cases hk
        exact hkind
      | attributes => exact hx.elim
      | shown => exact hx.elim
    | routine r =>
      cases h.routine hx with
      | shared b hw _ _ =>
        simp only [World.classOf, hw] at hk
        cases hk
        decide
      | bound g _ hw _ =>
        simp only [World.classOf, hw] at hk
        cases hk
        decide
    | cls => exact hx.elim
    | object => exact hx.elim
    | view => exact hx.elim
    | cursor => exact hx.elim
    | _ =>
      cases hk
      exact hkind
  | record => exact hx.elim
  | _ =>
    cases hk
    exact hkind

theorem exec_items {x : Value} {k : Kind} (hk : k ∈ rowless) (hc : w.classOf x = .builtIn k)
    (hx : ∀ cls, x ≠ World.classValue cls) (hu : w.extras = [])
    (ho : ∀ o, x ≠ .opaqueRef (.object o)) :
    (m.send x "items" [] []).exec w =
      (.error (.noAttribute (.object (w.kindName x)) "items"), w) := by
  have hset : w.setAttribute? x "items" = none := by
    unfold World.setAttribute? World.attributeCell?
    rw [hu]
    cases x with
    | opaqueRef o =>
      cases o with
      | object o => exact absurd rfl (ho o)
      | _ => rfl
    | _ => rfl
  have hplain : (Machine.plainReach x "items").exec w =
      (.error (.noAttribute (.object (w.kindName x)) "items"), w) := by
    unfold Machine.plainReach
    rw [Run.exec_bind, plainAccess_unfound (find?_items hk w) (by decide) (by decide) hc hx, hset]
    cases x with
    | opaqueRef o =>
      cases o with
      | cls c => exact absurd rfl (hx c)
      | _ => rfl
    | _ => rfl
  unfold Machine.send Machine.reach
  rw [Run.exec_bind, Run.exec_bind, Run.exec_world]
  dsimp only
  rw [World.special?_builtIn hc, World.special?_builtIn hc]
  dsimp only
  rw [hplain]

theorem rowsOf_agree (hs : L.settable = False) (hu : L.left.world.extras = [])
    (hu' : L.right.world.extras = []) {x : Value} (hx : x.Within e) :
    L.Agree e L.RenamedRows (m.rowsOf x) (m.rowsOf (x.rename L.ρ)) := by
  intro w v hl he
  have hw := hx.mono he
  unfold Alike Machine.rowsOf
  rw [Run.exec_bind, Run.exec_bind, Run.exec_look, Run.exec_look]
  dsimp only
  rw [hl.followed_rename hw, Value.rows?_rename]
  cases hr : (w.followed x).rows? with
  | some rows =>
    exact .ok hl (Extent.Below.refl _) ⟨Value.within_rows (hl.followed_within hw) hr, rfl⟩
  | none =>
    obtain ⟨k, hk, hc, hc'⟩ := hl.classOf_rowless hw hr
    have hleft : w.extras = [] := (hl.left.extras.resolve_left (hs ▸ id)).trans hu
    have hright : v.extras = [] := (hl.right.extras.resolve_left (hs ▸ id)).trans hu'
    have hobject : ∀ o, x ≠ .opaqueRef (.object o) := by
      rintro o rfl
      exact hx
    have hobject' : ∀ o, x.rename L.ρ ≠ .opaqueRef (.object o) := by
      intro o ho
      cases x with
      | opaqueRef p =>
        cases p with
        | object => exact hx
        | _ => cases ho
      | _ => cases ho
    dsimp only [Option.map]
    rw [Run.exec_bind, Run.exec_bind,
      exec_items hk hc (within_ne_class hx) hleft hobject,
      exec_items hk hc' (rename_ne_class hx L.ρ) hright hobject', hl.kindName_within hw]
    exact .error hl (Extent.Below.refl _) (.same _)

theorem textRows_agree (hm : L.Faithful m) (rows : List (Value × Value))
    (hr : Value.RowsWithin e rows) :
    L.Agree e L.RenamedNamed (rows.mapM fun row => do return (← m.text row.1, row.2))
      ((rows.map (Value.renameRow L.ρ)).mapM fun row => do return (← m.text row.1, row.2)) := by
  induction rows generalizing e with
  | nil => exact Agree.pure fun _ _ => ⟨by simp [Named.Within], rfl⟩
  | cons row rows ih =>
    obtain ⟨hrow, hrows⟩ := List.forall_mem_cons.mp hr
    rw [List.map_cons, List.mapM_cons, List.mapM_cons]
    apply Agree.bind (R := L.RenamedNamed) (Q := fun e p q =>
      p.2.Within e ∧ q = (p.1, p.2.rename L.ρ))
    · apply Agree.bind (text_agree hm hrow.1)
      rintro e₁ t _ h₁ rfl
      exact Agree.pure fun e₂ h₂ => ⟨hrow.2.mono (h₁.trans h₂), rfl⟩
    · rintro e₁ p _ h₁ ⟨hp, rfl⟩
      apply Agree.bind (ih fun r h => ⟨(hrows r h).1.mono h₁, (hrows r h).2.mono h₁⟩)
      rintro e₂ ps _ h₂ ⟨hps, rfl⟩
      exact Agree.pure fun e₃ h₃ =>
        ⟨List.forall_mem_cons.mpr ⟨hp.mono (h₂.trans h₃), hps.mono h₃⟩, rfl⟩

theorem callArguments_agree (hm : L.Faithful m) (hs : L.settable = False)
    (hu : L.left.world.extras = []) (hu' : L.right.world.extras = []) {x : Value}
    (hx : x.Within e) :
    L.Agree e L.RenamedNamed (m.callArguments x) (m.callArguments (x.rename L.ρ)) := by
  unfold Machine.callArguments
  apply Agree.bind (truthy_agree hx)
  rintro e₁ t _ h₁ rfl
  cases t with
  | false => exact Agree.pure fun _ _ => ⟨by simp [Named.Within], rfl⟩
  | true =>
    apply Agree.bind (rowsOf_agree hs hu hu' (hx.mono h₁))
    rintro e₂ rows _ h₂ ⟨hrows, rfl⟩
    apply Agree.bind (textRows_agree hm rows hrows)
    rintro e₃ named _ h₃ ⟨hn, rfl⟩
    rw [Named.ofRows_rename]
    exact Agree.pure fun e₄ h₄ => ⟨Named.Within.mono h₄ (Named.within_ofRows hn), rfl⟩

/-! ## The name of the tool -/

theorem note_agree (logger : String) (level : Int) {text text' : Run String}
    (h : L.Agree e Equal text text') :
    L.Agree e Equal (Run.note logger level text) (Run.note logger level text') := by
  unfold Run.note
  apply Agree.world
  intro w v hl he
  have hlog : v.logFrom = w.logFrom := by
    rw [hl.left.logFrom, hl.right.logFrom, hl.sound.logFrom]
  rw [hlog]
  split
  · refine Agree.bind h ?_ w v hl he
    rintro e₁ t _ h₁ rfl w v hl he
    exact .ok (hl.log _ _) (Extent.Below.refl _) rfl
  · exact .ok hl (Extent.Below.refl _) rfl

/-- Both classes have the same name, if they have one, and nothing in it can change. -/
theorem ownName_agree (hh : L.Hosts b b' σ a a' d d') (hs : b.ExecutesAlike b' σ a a' d d' apart) :
    L.Agree e (fun _ x y => x.Closed ∧ y = x) (Machine.ownValue (.made a) "_name")
      (Machine.ownValue (.made a') "_name") := by
  unfold Machine.ownValue
  apply Agree.world
  intro w v hl he
  rw [World.own?_congr (hh.extends_left hl).classes,
    World.own?_congr (hh.extends_right hl).classes, hs.named]
  cases hx : b.own? (.made a) "_name" with
  | none => exact .ok hl (Extent.Below.refl _) ⟨trivial, rfl⟩
  | some x =>
    obtain ⟨y, rfl, hy⟩ := hs.closed x hx
    exact .ok hl (Extent.Below.refl _) ⟨hy, rfl⟩

theorem toolNameOf_agree (hh : L.Hosts b b' σ a a' d d')
    (hs : b.ExecutesAlike b' σ a a' d d' apart) :
    L.Agree e L.Renamed (m.toolNameOf (.made a)) (m.toolNameOf (.made a')) := by
  unfold Machine.toolNameOf
  apply Agree.bind (ownName_agree hh hs)
  rintro e₁ x _ h₁ ⟨hx, rfl⟩
  have ht := truthy_agree (L := L) (m := m) (hx.within e₁)
  rw [hx.rename_eq] at ht
  apply Agree.bind ht
  rintro e₂ t _ h₂ rfl
  cases t with
  | true => exact Agree.pure fun e₃ _ => ⟨hx.within e₃, (hx.rename_eq L.ρ).symm⟩
  | false =>
    apply Agree.world
    intro w v hl he
    rw [World.className_congr (hh.extends_left hl).classes,
      World.className_congr (hh.extends_right hl).classes, hs.className]
    exact .ok hl (Extent.Below.refl _) ⟨trivial, rfl⟩

theorem toolName_agree (hh : L.Hosts b b' σ a a' d d') (hs : b.ExecutesAlike b' σ a a' d d' apart)
    (k : Nat) :
    L.Agree e L.Renamed ((Machine.nested (k + 1)).send L.left.context "tool_name" [] [])
      ((Machine.nested (k + 1)).send L.right.context "tool_name" [] []) := by
  unfold Machine.send
  have hm := faithful_nested L (k + 1)
  apply Agree.bind (reach_hosted hm hh (.ofClass _ _) hs.left.toolName hs.right.toolName)
  intro e₁ y y' h₁ hy
  exact use_got hm hy (Args.none e₁) (toolNameOf_agree hh hs)

/-! ## Calls with a mapping -/

/-- What a call by a mapping binds: the object that is called, and its mapping. -/
structure BoundCall (L : Link) (c c' : Value) (e : Extent) (p q : String → Value) : Prop where
  self : p "self" = c ∧ q "self" = c'
  within : (p "args").Within e
  renamed : q "args" = (p "args").rename L.ρ

theorem leftover_rename (ρ : Renaming) (params : List (String × Option Value)) (named : Named) :
    (leftover params (Named.rename ρ named)).isEmpty = (leftover params named).isEmpty := by
  unfold leftover Named.rename
  rw [List.filter_map, List.isEmpty_map]
  rfl

theorem bindCall_agree (c c' : Value) {args : List Value} {named : Named} (ha : Args e args named) :
    L.Agree e (L.BoundCall c c')
      (Run.lift (bindAll HostMethod.callFunction.signature.takes (c :: args) named))
      (Run.lift (bindAll HostMethod.callFunction.signature.takes
        (c' :: args.map (Value.rename L.ρ)) (Named.rename L.ρ named))) := by
  have bound (x : Value) (hx : x.Within e) :
      L.Agree e (L.BoundCall c c')
        (Run.lift (if (leftover HostMethod.callFunction.signature.takes named).isEmpty then
          pure fun name => (Table.find? [("self", c), ("args", x)] name).getD .null
          else throw .mismatch))
        (Run.lift (if (leftover HostMethod.callFunction.signature.takes named).isEmpty then
          pure fun name => (Table.find? [("self", c'), ("args", x.rename L.ρ)] name).getD .null
          else throw .mismatch)) := by
    split
    · exact Agree.lift_ok fun e' he => ⟨⟨rfl, rfl⟩, hx.mono he, rfl⟩
    · exact Agree.lift_error .mismatch
  unfold bindAll
  rw [leftover_rename]
  show L.Agree e _
    (Run.lift (do
      let vars ← bindParams named [("self", none), ("args", some .null)] (c :: args)
      _))
    (Run.lift (do
      let vars ← bindParams (Named.rename L.ρ named) [("self", none), ("args", some .null)]
        (c' :: args.map (Value.rename L.ρ))
      _))
  rw [bindParams, bindParams, Named.find?_rename, Option.isSome_map]
  split
  · exact Agree.lift_error .mismatch
  · cases args with
    | nil =>
      simp only [List.map_nil, bindParams, Named.find?_rename]
      cases hx : Table.find? named "args" with
      | none => exact bound .null trivial
      | some x => exact bound x (Named.within_find? ha.named hx)
    | cons x args =>
      simp only [List.map_cons, bindParams, Named.find?_rename, Option.isSome_map]
      split
      · exact Agree.lift_error .mismatch
      · cases args with
        | nil => exact bound x (ha.args x List.mem_cons_self)
        | cons y args => exact Agree.lift_error .mismatch

theorem within_ofNamed {named : Named} (h : Named.Within e named) :
    (Value.ofRows named).Within e := by
  refine Value.withinRows_iff.mpr fun row hrow => ?_
  obtain ⟨r, hr, rfl⟩ := List.mem_map.mp hrow
  exact ⟨trivial, h r hr⟩

theorem noteCall_agree (hm : L.Faithful m) {name x : Value} (hn : name.Within e) (hx : x.Within e)
    (verb : String) :
    L.Agree e Equal
      (Run.note Machine.hostsLogger 10 do
        let tool ← m.text name
        return "Tool " ++ tool ++ verb ++ (← m.printed x))
      (Run.note Machine.hostsLogger 10 do
        let tool ← m.text (name.rename L.ρ)
        return "Tool " ++ tool ++ verb ++ (← m.printed (x.rename L.ρ))) := by
  apply note_agree
  apply Agree.bind (text_agree hm hn)
  rintro e₁ tool _ h₁ rfl
  apply Agree.bind (printed_agree hm (hx.mono h₁))
  rintro e₂ text _ h₂ rfl
  exact Agree.pure fun _ _ => rfl

/-- The method that executes, as both objects reach it. -/
abbrev GotExecute (L : Link) (a a' d d' : Nat) : Extent → Access → Access → Prop :=
  L.Got (methodOf L.left.context a (.ofObject (.runs (.opaqueRef (.object d)))))
    (methodOf L.right.context a' (.ofObject (.runs (.opaqueRef (.object d')))))

theorem useExecute_agree (hh : L.Hosts b b' σ a a' d d')
    (hs : b.ExecutesAlike b' σ a a' d d' apart) (k : Nat) {y y' : Access} {args : List Value}
    {named : Named} (hy : L.GotExecute a a' d d' e y y') (ha : Args e args named) :
    L.Agree e L.Renamed ((Machine.nested (k + 1)).use y args named)
      ((Machine.nested (k + 1)).use y' (args.map (Value.rename L.ρ)) (Named.rename L.ρ named)) :=
  use_got (faithful_nested L (k + 1)) hy ha (runs_agree (faithful_nested L k) hh hs.stores ha)

theorem callFunction_agree (hh : L.Hosts b b' σ a a' d d')
    (hs : b.ExecutesAlike b' σ a a' d d' apart) (k : Nat) {x : Value} (hx : x.Within e) :
    L.Agree e L.Renamed ((Machine.nested (k + 1)).callFunction L.left.context x)
      ((Machine.nested (k + 1)).callFunction L.right.context (x.rename L.ρ)) := by
  have hm := faithful_nested L (k + 1)
  unfold Machine.callFunction
  apply Agree.bind (callArguments_agree hm hh.sealed (hh.left.extras.trans hs.unset.1)
    (hh.right.extras.trans hs.unset.2) hx)
  rintro e₁ named _ h₁ ⟨hn, rfl⟩
  apply Agree.bind (toolName_agree hh hs k)
  rintro e₂ name _ h₂ ⟨hname, rfl⟩
  have hn := Named.Within.mono h₂ hn
  have noted := noteCall_agree hm hname (within_ofNamed hn) " called with: "
  rw [Named.ofRows_value_rename] at noted
  apply Agree.bind noted
  rintro e₃ _ _ h₃ -
  have hn := Named.Within.mono h₃ hn
  have executed : L.Agree e₃ L.Renamed
      ((Machine.nested (k + 1)).send L.left.context "execute" [] named)
      ((Machine.nested (k + 1)).send L.right.context "execute" [] (Named.rename L.ρ named)) := by
    apply Agree.bind (reach_hosted hm hh (.ofObject _ _) hs.left.execute hs.right.execute)
    intro e₄ y y' h₄ hy
    exact useExecute_agree hh hs k hy ⟨by simp, Named.Within.mono h₄ hn⟩
  apply Agree.bind executed
  rintro e₄ result _ h₄ ⟨hresult, rfl⟩
  apply Agree.bind (toolName_agree hh hs k)
  rintro e₅ name' _ h₅ ⟨hname', rfl⟩
  have hresult := hresult.mono h₅
  apply Agree.bind (noteCall_agree hm hname' hresult " returned: ")
  rintro e₆ _ _ h₆ -
  exact Agree.pure fun e₇ h₇ => ⟨hresult.mono (h₆.trans h₇), rfl⟩

/-- The method that takes a mapping, as both objects reach it. -/
abbrev GotCall (L : Link) (a a' : Nat) : Extent → Access → Access → Prop :=
  L.Got (methodOf L.left.context a (.ofObject (.bundled (.host .callFunction))))
    (methodOf L.right.context a' (.ofObject (.bundled (.host .callFunction))))

theorem useCall_agree (hh : L.Hosts b b' σ a a' d d') (hs : b.ExecutesAlike b' σ a a' d d' apart)
    (k : Nat) {y y' : Access} {args : List Value} {named : Named} (hy : L.GotCall a a' e y y')
    (ha : Args e args named) :
    L.Agree e L.Renamed ((Machine.nested (k + 2)).use y args named)
      ((Machine.nested (k + 2)).use y' (args.map (Value.rename L.ρ)) (Named.rename L.ρ named)) := by
  refine use_got (faithful_nested L (k + 2)) hy ha ?_
  apply Agree.bind (bindCall_agree L.left.context L.right.context ha)
  intro e₁ p q h₁ hb
  rw [hb.self.1, hb.self.2, hb.renamed]
  exact callFunction_agree hh hs k hb.within

/-! ## Calls of both objects -/

theorem callAttribute_of_reach {Q : Extent → Access → Access → Prop} {c c' : Value} {name : String}
    (hr : L.Agree e Q (m.reach c name) (m.reach c' name))
    (hq : ∀ {e e' y y'}, e.Below e' → Q e y y' → Q e' y y')
    (hu : ∀ {e y y' args named}, Q e y y' → Args e args named →
      L.Agree e L.Renamed (m.use y args named)
        (m.use y' (args.map (Value.rename L.ρ)) (Named.rename L.ρ named)))
    (args : List Literal) (named : Literal.Rows) :
    L.Agree e L.Renamed (m.callAttribute c name args named)
      (m.callAttribute c' name args named) := by
  unfold Machine.callAttribute
  apply Agree.bind hr
  intro e₁ y y' h₁ hy
  apply Agree.bind (literals_agree args)
  rintro e₂ xs _ h₂ ⟨hxs, rfl⟩
  apply Agree.bind (literalRows_agree named)
  rintro e₃ rows _ h₃ ⟨hrows, rfl⟩
  exact hu (hq (h₂.trans h₃) hy) ⟨fun x hx => (hxs x hx).mono h₃, hrows⟩

/-- What is called of an object: the method that executes, the one that takes a mapping, or what is
found under a name that the classes leave to helpers and to what blocks set. -/
inductive Called (L : Link) : String → Prop
  | execute : Called L "execute"
  | call : Called L "call"
  | free {name : String} (h : L.Open name) : Called L name

theorem callAttribute_agree (hh : L.Hosts b b' σ a a' d d')
    (hs : b.ExecutesAlike b' σ a a' d d' apart) (k : Nat) {name : String} (hn : L.Called name)
    (args : List Literal) (named : Literal.Rows) :
    L.Agree e L.Renamed ((Machine.nested (k + 2)).callAttribute L.left.context name args named)
      ((Machine.nested (k + 2)).callAttribute L.right.context name args named) := by
  have hm := faithful_nested L (k + 2)
  cases hn with
  | execute =>
    exact callAttribute_of_reach (Q := L.GotExecute a a' d d')
      (reach_hosted hm hh (.ofObject _ _) hs.left.execute hs.right.execute) Got.mono
      (useExecute_agree hh hs (k + 1)) args named
  | call =>
    exact callAttribute_of_reach (Q := L.GotCall a a')
      (reach_hosted hm hh (.ofObject _ _) hs.left.call hs.right.call) Got.mono
      (useCall_agree hh hs k) args named
  | free ho =>
    exact callAttribute_of_reach (Q := L.Reached)
      ((reach_agree hm (.own hh.present) ho).mono fun _ _ _ _ h => h.reached)
      (fun he h => h.mono he)
      (fun hy ha => hm.use hy ha) args named

end Link

end Toolwright
