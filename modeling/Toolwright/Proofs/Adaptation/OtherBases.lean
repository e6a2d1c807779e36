import Toolwright.Proofs.Adaptation.ServedTool

/-!
# Bases that lack methods of the host

A definition may be adapted to a class that does not have all methods that are called on the class that
is made. The adaptation fails where it comes to the first of them, and nothing has changed that was
there before. A definition without parameters can be adapted for a function-calling host to a class of
a serving host.
-/

namespace Toolwright

set_option autoImplicit false

namespace World

variable {w : World} {n : Nat} {name key : String} {b : ClassRef} {own : String → Option Attribute}

theorem ClassAt.find?_none (h : w.ClassAt n name b own) (ho : own key = none)
    (hb : w.find? b key = none) : w.find? (.made n) key = none :=
  (h.find?_above ho).trans hb

end World

namespace Machine

variable {w v : World} {n : Nat} {name : String} {b : ClassRef} {own : String → Option Attribute}
  {p : Draft} {D : Definition Stored} {C : Nat → Prop} {x : Except Fault Value}

theorem exec_publish_none (m : Machine) {c : ClassRef} (hf : w.find? c "tool_name" = none)
    (definition : Value) (named : Run String) :
    (m.publish (World.classValue c) definition named).exec w =
      (.error (.noAttribute (.cls (w.className c)) "tool_name"), w) := by
  unfold publish
  rw [Run.exec_bind, exec_reachNone m ⟨by decide, by decide⟩ hf]

theorem exec_declareAll_none (m : Machine) {c : ClassRef} (hf : w.find? c "param" = none)
    (params : List Value) :
    (m.declareAll (World.classValue c) params).exec w = (.ok PUnit.unit, w) ∧ params = [] ∨
      (m.declareAll (World.classValue c) params).exec w =
        (.error (.noAttribute (.cls (w.className c)) "param"), w) := by
  cases params with
  | nil => exact .inl ⟨rfl, rfl⟩
  | cons place places =>
    refine .inr ?_
    unfold declareAll
    rw [List.forIn_cons, Run.exec_bind, Run.exec_bind,
      exec_reachNone m ⟨by decide, by decide⟩ hf]

/-! ## Tools of function-calling hosts -/

/-- A definition is adapted to a class that is not told of it: the class is made with the free helpers,
and then declared on; or that fails before. -/
theorem adaptLlm_untold (k : Nat) (h : w.Declares p D C) (hroot : w.Rooted b)
    (huntold : ∀ k a, w.find? b "__init_subclass__" ≠ some (.made k, a)) {base : Value}
    (hreq : (requireHost llmHost base "LLM tool host" "tool_forge.hosts.llm").exec w =
      (.ok (World.classValue b), w))
    (hr : ((nested (k + 3)).adaptLlm p.value base).exec w = (x, v)) :
    (w.Later v (fun _ => False) ∧ Hosted x ∧ ∀ cls, x ≠ .ok cls) ∨ ∃ u text own,
      w.Later u (fun _ => False) ∧ w.textOf D.name = .ok text ∧
      u.ClassAt w.classes.length (Naming.className text "") b own ∧
      (∀ key, key ∉ ClassPlan.standing → own key = ((Table.find? (fixedRows D.description p) key).or
        (D.free? (reservedNames w (World.classValue b)) key)).map fun a =>
          (ClassPlan.settle (key, a)).2) ∧
      ((nested (k + 3)).furnish p.value w.classes.length).exec u = (x, v) := by
  rcases adaptLlm_reaches k h hreq hr with
    ⟨hnoted, hosted, hno⟩ | ⟨warned, u, text, -, hlogged, htext, -, hr⟩
  · exact .inl ⟨hnoted.later _, hosted, hno⟩
  have hnoted : w.Noted u := ⟨_, hlogged⟩
  have hl := hnoted.later (fun _ => False)
  have hclasses : u.classes = w.classes := by
    obtain ⟨log, rfl⟩ := hnoted
    rfl
  have hattributes := find?_functionAttributes p D.description
    (reservedNames w (World.classValue b)) h.instanceNames h.classNames
  have hrootu := hl.rooted hroot
  have built {y : Except Fault Nat} {u₁ : World} (hbuild : ((nested (k + 3)).buildClass
      (Naming.className text "") b (withAttributes (D.freeRows (reservedNames w
        (World.classValue b))) (fixedRows D.description p))).exec u = (y, u₁)) :=
    of_buildUntold hrootu (fun k a => by rw [hl.find? hroot]; exact huntold k a)
      (fun x => by rw [hattributes]; exact free?_ne_value D _ "__slots__" x)
      (fun x => by rw [hattributes]; exact free?_ne_value D _ "__qualname__" x) hbuild
  rcases Run.exec_bind_cases hr with ⟨f, rfl, hbuild⟩ | ⟨n, u₁, hbuild, hr⟩
  · obtain ⟨rfl, -, hosted⟩ | ⟨⟨⟩, -⟩ := built hbuild
    exact .inl ⟨hl, hosted.error, fun _ h => by cases h⟩
  obtain ⟨-, hnone, -⟩ | ⟨⟨⟩, rfl⟩ := built hbuild
  · exact absurd rfl (hnone n)
  have hcls := u.classAt_withClass (builtClass u (Naming.className text "") b (withAttributes
    (D.freeRows (reservedNames w (World.classValue b))) (fixedRows D.description p))) hrootu rfl rfl
  rw [hclasses] at hcls hr
  exact .inr ⟨_, text, _, hl.trans (u.later_withClass _) fun _ hn _ => hn, htext, hcls,
    find?_functionClass u b _ p D.description _ h.instanceNames h.classNames, hr⟩

theorem adaptLlm_unnamed (k : Nat) (h : w.Declares p D C) (hroot : w.Rooted b)
    (huntold : ∀ k a, w.find? b "__init_subclass__" ≠ some (.made k, a))
    (hlacks : w.find? b "tool_name" = none) (hno : D.helper? "tool_name" = none) {base : Value}
    (hreq : (requireHost llmHost base "LLM tool host" "tool_forge.hosts.llm").exec w =
      (.ok (World.classValue b), w))
    (hr : ((nested (k + 3)).adaptLlm p.value base).exec w = (x, v)) :
    w.Later v (fun _ => False) ∧ Hosted x ∧ ∀ cls, x ≠ .ok cls := by
  obtain hfail | ⟨u, text, own, hl, -, hcls, hown, hr⟩ :=
    adaptLlm_untold k h hroot huntold hreq hr
  · exact hfail
  have hnone : u.find? (.made w.classes.length) "tool_name" = none := by
    refine hcls.find?_none ?_ ((hl.find? hroot _).trans hlacks)
    rw [hown _ (by decide)]
    unfold Definition.free?
    rw [hno]
    split <;> rfl
  unfold furnish at hr
  rw [Run.exec_bind, exec_publish_none _ hnone] at hr
  cases hr
  exact ⟨hl, (fun _ _ _ h => by cases h), fun _ h => by cases h⟩

/-- What a class of a serving host becomes to which a definition without parameters was adapted for a
function-calling host. -/
structure UnservedAttributes (D : Definition Stored) (text : String)
    (own : String → Option Attribute) : Prop where
  name : own "_name" = some (.value (.str text))
  description : World.Describes (own "_description") D.description
  schema : own "_input_schema" = none
  told : own "__init_subclass__" = none
  methods : ∀ row ∈ servingMethods, own row.1 = none

theorem adaptLlm_serving (k : Nat) (h : w.Declares p D C) (hbase : w.ServingBase b)
    (hfields : ∀ name ∈ ["_name", "_description", "_input_schema"], name ∈ w.attributeNames b)
    (hlacks : w.find? b "param" = none) (hno : D.helper? "param" = none)
    (hsub : D.helper? "__init_subclass__" = none) {base : Value}
    (hreq : (requireHost llmHost base "LLM tool host" "tool_forge.hosts.llm").exec w =
      (.ok (World.classValue b), w))
    (hr : ((nested (k + 3)).adaptLlm p.value base).exec w = (x, v)) :
    w.Later v (fun _ => False) ∧ Hosted x ∧ ∀ cls, x = .ok cls → ∃ text own,
      cls = World.classValue (.made w.classes.length) ∧ w.textOf D.name = .ok text ∧
      v.ClassAt w.classes.length (Naming.className text "") b own ∧
      UnservedAttributes D text own := by
  obtain ⟨hl, hosted, hno⟩ | ⟨u, text, own, hl, htext, hcls, hown, hr⟩ :=
    adaptLlm_untold k h hbase.rooted hbase.untold hreq hr
  · exact ⟨hl, hosted, fun cls hcls => absurd hcls (hno cls)⟩
  have unfixed {key : String} (hk : key ∉ ClassPlan.standing)
      (hfixed : key ∉ ["__module__", "__doc__", "definition", "execute"])
      (hfree : D.free? (reservedNames w (World.classValue b)) key = none) : own key = none := by
    rw [hown key hk, Table.find?_eq_none hfixed, hfree]
    rfl
  have unhelped {key : String} (hk : key ∉ ClassPlan.standing)
      (hfixed : key ∉ ["__module__", "__doc__", "definition", "execute"])
      (hnone : D.helper? key = none) : own key = none := by
    refine unfixed hk hfixed ?_
    unfold Definition.free?
    rw [hnone]
    split <;> rfl
  have reserved {key : String} (hk : key ∉ ClassPlan.standing)
      (hfixed : key ∉ ["__module__", "__doc__", "definition", "execute"])
      (hp : key.startsWith "__" = false) (hm : key ∈ w.attributeNames b) : own key = none :=
    unfixed hk hfixed (free?_reserved (mem_reservedNames hp hm))
  have plain : ∀ row ∈ servingMethods, row.1 ∉ ClassPlan.standing ∧
      row.1 ∉ ["__module__", "__doc__", "definition", "execute"] ∧ row.1.startsWith "__" = false ∧
        row.1 ∉ ["_name", "_description"] := by
    decide +kernel
  have hmethods : ∀ row ∈ servingMethods, own row.1 = none := by
    intro row hrow
    obtain ⟨hs, hf, hp, -⟩ := plain row hrow
    obtain ⟨holder, hfound⟩ := hbase.finds row hrow
    exact reserved hs hf hp (World.mem_attributeNames hfound)
  have hdu := (h.unchanged hl).declares
  have htextu : ((nested (k + 3)).nameText p.value).exec u = (.ok text, u) := by
    rw [exec_nameText _ hdu, (hl.retains h.data fun _ _ => id).textOf h.data
      (h.values _ List.mem_cons_self).1, htext]
  obtain ⟨u₁, own', hpublished, -, hl₁, hcls₁, hname, hdescription, hrest⟩ :=
    exec_publish (k + 2) .servedName h hl (Nat.le_refl _) hcls hbase.toHasMethods hmethods (by decide)
      (reserved (by decide) (by decide) (by decide +kernel) (hfields _ (by simp))) (by decide)
      (by decide) (by decide) htextu
  unfold furnish at hr
  rw [Run.exec_bind, hpublished] at hr
  dsimp only at hr
  have hd₁ := (h.unchanged hl₁).declares
  rw [Run.exec_bind, exec_askParams _ hd₁.toDrafts hd₁.bundled] at hr
  dsimp only at hr
  rw [Run.exec_bind, exec_iterate _ hd₁.params] at hr
  dsimp only at hr
  have hparam : u₁.find? (.made w.classes.length) "param" = none := by
    refine hcls₁.find?_none ?_ ((hl₁.find? hbase.rooted _).trans hlacks)
    rw [hrest _ (by decide)]
    exact unhelped (by decide) (by decide) hno
  rcases exec_declareAll_none (nested (k + 3)) hparam (p.specs.map fun s => objectValue s.1) with
    ⟨hnone, -⟩ | hfail
  · rw [Run.exec_bind, hnone] at hr
    obtain ⟨hnoted, hosted, -, hmade⟩ := of_noteTool hd₁ hr
    have hlast := hnoted.later (fun _ => False)
    refine ⟨hl₁.trans hlast fun _ hn _ => hn, hosted, fun cls hx => ?_⟩
    refine ⟨text, own', hmade cls hx, htext, hlast.classAt hcls₁ (hl₁.rooted hbase.rooted), ?_⟩
    exact {
      name := hname
      description := hdescription
      schema := (hrest _ (by decide)).trans
        (reserved (by decide) (by decide) (by decide +kernel) (hfields _ (by simp)))
      told := (hrest _ (by decide)).trans (unhelped (by decide) (by decide) hsub)
      methods := fun row hrow =>
        (hrest row.1 (plain row hrow).2.2.2).trans (hmethods row hrow) }
  · rw [Run.exec_bind, hfail] at hr
    cases hr
    exact ⟨hl₁, (fun _ _ _ h => by cases h), fun _ h => by cases h⟩

/-! ## Tools of serving hosts -/

theorem furnishServed_unnamed (m : Machine) (h : w.Declares p D C) {text : String}
    (hnone : w.find? (.made n) "tool_name" = none)
    (hr : (m.furnishServed p.value text n).exec w = (x, v)) :
    v = w ∧ Hosted x ∧ ∀ cls, x ≠ .ok cls := by
  unfold furnishServed at hr
  rw [Run.exec_bind, exec_servedSchema _ h] at hr
  cases hs : w.servedSchema D.params with
  | error f =>
    rw [hs] at hr
    cases hr
    exact ⟨rfl, (World.hosted_servedSchema _ _).of_eq hs, fun _ h => by cases h⟩
  | ok s =>
    rw [hs] at hr
    dsimp only at hr
    rw [Run.exec_bind, exec_publish_none _ hnone] at hr
    cases hr
    exact ⟨rfl, (fun _ _ _ h => by cases h), fun _ h => by cases h⟩

theorem find?_servedRows {doc : Value} {t : Nat} {indent : Value} {text key : String}
    (hk : key ∉ ["__module__", "__doc__", "definition", "helper_class", "call"]) :
    Table.find? (Table.ofRows (servedRows doc p t indent text)) key = none := by
  rw [Table.ofRows_of_nodup (by simp [Table.keys, servedRows])]
  exact Table.find?_eq_none hk

theorem adaptServed_unnamed (k : Nat) (h : w.Declares p D C) (hroot : w.Rooted b)
    (huntold : ∀ k a, w.find? b "__init_subclass__" ≠ some (.made k, a))
    (hlacks : w.find? b "tool_name" = none) {indent : Value}
    (hr : ((nested (k + 3)).adaptServed p.value (World.classValue b) indent).exec w = (x, v)) :
    w.Later v (fun _ => False) ∧ Hosted x ∧ ∀ cls, x ≠ .ok cls := by
  rcases adaptServed_reaches k h hr with
    ⟨rfl, hosted, hno⟩ | ⟨u, text, -, -, hu, -, -, hr⟩
  · exact ⟨World.Later.refl v _, hosted, hno⟩
  have hl : w.Later u (fun _ => False) := hu ▸ w.later_withClass _
  have hrootu := hl.rooted hroot
  have built {y : Except Fault Nat} {u₁ : World} (hbuild : ((nested (k + 3)).buildClass
      (Naming.className text "") b (servedRows D.description p w.classes.length indent text)).exec u =
        (y, u₁)) :=
    of_buildUntold hrootu (fun k a => by rw [hl.find? hroot]; exact huntold k a)
      (fun x => by rw [find?_servedRows (by decide)]; exact (Option.some_ne_none _).symm)
      (fun x => by rw [find?_servedRows (by decide)]; exact (Option.some_ne_none _).symm) hbuild
  rcases Run.exec_bind_cases hr with ⟨f, rfl, hbuild⟩ | ⟨n, u₁, hbuild, hr⟩
  · obtain ⟨rfl, -, hosted⟩ | ⟨⟨⟩, -⟩ := built hbuild
    exact ⟨hl, hosted.error, fun _ h => by cases h⟩
  obtain ⟨-, hnone, -⟩ | ⟨⟨⟩, rfl⟩ := built hbuild
  · exact absurd rfl (hnone n)
  have hl₁ := hl.trans (u.later_withClass (builtClass u (Naming.className text "") b
    (servedRows D.description p w.classes.length indent text))) fun _ hn _ => hn
  have hcls := u.classAt_withClass (builtClass u (Naming.className text "") b
    (servedRows D.description p w.classes.length indent text)) hrootu rfl rfl
  have hown : Table.find? (builtClass u (Naming.className text "") b
      (servedRows D.description p w.classes.length indent text)).attributes "tool_name" = none := by
    rw [find?_builtClass (by decide), find?_servedRows (by decide)]
    rfl
  have hnone := hcls.find?_none hown ((hl₁.find? hroot _).trans hlacks)
  obtain ⟨rfl, hfail⟩ := furnishServed_unnamed _ (h.unchanged hl₁).declares hnone hr
  exact ⟨hl₁, hfail⟩

theorem adaptServed_function (k : Nat) (h : w.Declares p D C) {s : Shelf} {t : ParameterTable}
    (hbase : w.FunctionBase b s t C) (hlacks : w.find? b "input_schema" = none) {indent : Value}
    (hr : ((nested (k + 3)).adaptServed p.value (World.classValue b) indent).exec w = (x, v)) :
    w.Later v (fun _ => False) ∧ Hosted x ∧ ∀ cls, x ≠ .ok cls := by
  rcases adaptServed_reaches k h hr with
    ⟨rfl, hosted, hno⟩ | ⟨u, text, -, -, hu, -, -, hr⟩
  · exact ⟨World.Later.refl v _, hosted, hno⟩
  have hl : w.Later u (fun _ => False) := hu ▸ w.later_withClass _
  have hdu := (h.unchanged hl).declares
  have hbaseu := hl.functionBase hbase h.data (fun _ _ => id) (fun _ _ => id)
  let cls := builtClass u (Naming.className text "") b
    (servedRows D.description p w.classes.length indent text)
  have hown {key : String} (hs : key ∉ ClassPlan.standing)
      (hk : key ∉ ["__module__", "__doc__", "definition", "helper_class", "call"]) :
      Table.find? cls.attributes key = none := by
    rw [find?_builtClass hs, find?_servedRows hk]
    rfl
  have built {y : Except Fault Nat} {u₁ : World} (hbuild : ((nested (k + 3)).buildClass
      (Naming.className text "") b (servedRows D.description p w.classes.length indent text)).exec u =
        (y, u₁)) :=
    of_buildTool (k + 1) hbaseu hdu.bundled hdu.data
      (fun x => by rw [find?_servedRows (by decide)]; exact (Option.some_ne_none _).symm)
      (fun x => by rw [find?_servedRows (by decide)]; exact (Option.some_ne_none _).symm)
      (hown (by decide) (by decide)) hbuild
  rcases Run.exec_bind_cases hr with ⟨f, rfl, hbuild⟩ | ⟨n, u₁, hbuild, hr⟩
  · obtain ⟨rfl, -, hosted⟩ | ⟨⟨⟩, -⟩ := built hbuild
    exact ⟨hl, hosted.error, fun _ h => by cases h⟩
  obtain ⟨-, hnone, -⟩ | ⟨⟨⟩, hu₁⟩ := built hbuild
  · exact absurd rfl (hnone n)
  obtain ⟨hlu, hcls, -⟩ := hbaseu.withTool hdu.data (show cls.lineage = _ from rfl) rfl
  rw [← hu₁] at hlu hcls
  have hl₁ : w.Later u₁ (fun _ => False) := hl.trans hlu fun _ hn _ => hn
  have hd₁ := (h.unchanged hl₁).declares
  unfold furnishServed at hr
  rw [Run.exec_bind, exec_servedSchema _ hd₁] at hr
  cases hs : u₁.servedSchema D.params with
  | error f =>
    rw [hs] at hr
    cases hr
    exact ⟨hl₁, (World.hosted_servedSchema _ _).of_eq hs, fun _ h => by cases h⟩
  | ok schema =>
  rw [hs] at hr
  dsimp only at hr
  have plain : ∀ row ∈ functionMethods, row.1 ∉ ClassPlan.standing ∧
      row.1 ∉ ["__module__", "__doc__", "definition", "helper_class", "call"] ∧
        "_parameters" ≠ row.1 := by
    decide
  obtain ⟨u₂, own, hpublished, -, hlu₂, hcls₂, -, -, hrest⟩ :=
    exec_publish (k + 2) .functionName hdu hlu (Nat.le_refl _) hcls hbaseu.toHasMethods
      (fun row hrow => by
        obtain ⟨hp, hk, hne⟩ := plain row hrow
        rw [if_neg hne, hown hp hk])
      (by decide) (by rw [if_neg (by decide), hown (by decide) (by decide)]) (by decide) (by decide)
      (by decide) (show (pure text : Run String).exec u₁ = (.ok text, u₁) from rfl)
  rw [Run.exec_bind, hpublished] at hr
  dsimp only at hr
  have hl₂ : w.Later u₂ (fun _ => False) := hl.trans hlu₂ fun _ hn _ => hn
  have hd₂ := (h.unchanged hl₂).declares
  have hwithin : (Value.ofRows schema.properties).Within (u₂.data C) := by
    have described : ∀ spec ∈ D.params, spec.description.Within (u₂.data C) := fun spec hs =>
      hd₂.within_params hs _ (by simp [ParamSpec.values])
    refine World.within_servedSchema described ?_
    have specs : ∀ spec ∈ D.params, ∀ x ∈ spec.values, x.Within (w.data C) := fun spec hs =>
      h.within_params hs
    rw [(hl₂.retains h.data fun _ _ => id).servedSchema h.data specs, ← hs,
      (hl₁.retains h.data fun _ _ => id).servedSchema h.data specs]
  obtain ⟨P, R, u₃, hfields, hl₃, -⟩ := exec_schemaFields hd₂.data hwithin
  rw [Run.exec_bind, hfields] at hr
  dsimp only at hr
  have hlw : w.Later u₃ (fun _ => False) := hl₂.trans hl₃ fun _ hn _ => hn
  have hnone : u₃.find? (.made u.classes.length) "input_schema" = none := by
    refine (hl₃.classAt hcls₂ (hl₂.rooted hbase.rooted)).find?_none ?_
      ((hlw.find? hbase.rooted _).trans hlacks)
    rw [hrest _ (by decide), if_neg (by decide), hown (by decide) (by decide)]
  have hsent : ((nested (k + 3)).send (World.classValue (.made u.classes.length)) "input_schema" []
      [("properties", P), ("required", R)]).exec u₃ =
        (.error (.noAttribute (.cls (u₃.className (.made u.classes.length))) "input_schema"), u₃) := by
    unfold send
    rw [Run.exec_bind, exec_reachNone _ ⟨by decide, by decide⟩ hnone]
  rw [Run.exec_bind, hsent] at hr
  cases hr
  exact ⟨hlw, (fun _ _ _ h => by cases h), fun _ h => by cases h⟩

end Machine

end Toolwright
