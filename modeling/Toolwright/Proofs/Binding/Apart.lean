import Toolwright.Proofs.Isolation.Separate
import Toolwright.Proofs.Publication.Definitions
import Toolwright.Proofs.Tree.Schemas

/-!
# Definitions apart from their classes

A definition and a class that was made of it stand on cells of their own. What is declared of the
definition leaves the class as it was, and what is declared on the class leaves the definition as it was.
-/

namespace Toolwright

set_option autoImplicit false

/-- The methods by which something is declared on a class of a function-calling host. -/
def functionDeclarations : List String := ["tool_name", "description", "param"]

/-- The methods by which something is declared on a class of a serving host. -/
def servingDeclarations : List String := ["tool_name", "description", "input_schema"]

/-! ## Declarations on a class -/

namespace World

variable {w v u : World} {n : Nat} {C C' C'' own : Nat → Prop} {card : FunctionCard} {s : Shelf}
  {served : ServingCard} {title description : Value} {name : String}
  {keys : List String}

/-- A world in which something was declared on a class under some names, and data was added. At most the
cells of `own` have changed. -/
structure Declared (w v : World) (n : Nat) (keys : List String) (own C C' : Nat → Prop) : Prop where
  moves : w.Moves v own (· = n)
  finds : ∀ k, w.Rooted (.made k) → ∀ key, key ∉ keys ∨ .made n ∉ w.lineage (.made k) →
    v.find? (.made k) key = w.find? (.made k) key
  names : v.names = w.names
  data : v.HoldsData C'
  more : ∀ k, C k → C' k
  fresh : ∀ k, C' k → C k ∨ w.cells.length ≤ k

theorem Later.declared (hl : w.Later v fun _ => False) (hd : w.HoldsData C) (n : Nat)
    (keys : List String) (own : Nat → Prop) : w.Declared v n keys own C C where
  moves := (hl.mono fun _ => False.elim).moves _
  finds _ hk key _ := hl.find? hk key
  names := hl.names
  data := (hl.retains hd fun _ _ => id).holdsData hd
  more _ := id
  fresh _ := .inl

theorem Gains.declared (hg : w.Gains C v) (hd : w.HoldsData C) (n : Nat) (keys : List String)
    (own : Nat → Prop) : w.Declared v n keys own C (w.gained C v) where
  moves := (hg.later.mono fun _ => False.elim).moves _
  finds _ hk key _ := hg.later.find? hk key
  names := hg.later.names
  data := hg.data
  more := (hg.below hd).cell
  fresh _ hk := hk.1

theorem Declared.trans (h : w.Declared v n keys own C C') (h' : v.Declared u n keys own C' C'') :
    w.Declared u n keys own C C'' where
  moves := h.moves.trans h'.moves
  finds k hk key hkey := by
    refine (h'.finds k (h.moves.leads.rooted hk) key ?_).trans (h.finds k hk key hkey)
    rwa [h.moves.leads.lineage hk]
  names := h'.names.trans h.names
  data := h'.data
  more k hk := h'.more k (h.more k hk)
  fresh k hk := (h'.fresh k hk).elim (h.fresh k) fun hle => .inr (Nat.le_trans h.moves.cells_le hle)

theorem Titled.declared (h : w.Titled n title description C) (hd : w.HoldsData C)
    (hm : name ∈ declaredNames) (hk : name ∈ keys) (x : Value) (own : Nat → Prop) :
    w.Declared (w.setAttribute n name (.value x)) n keys own C C where
  moves := moves_setAttribute h.isHost hm x own
  finds _ _ key hkey := find?_setAttribute (hkey.imp (fun hn => by
    rintro rfl
    exact hn hk) id) _
  names := rfl
  data := ((moves_setAttribute h.isHost hm x fun _ => False).retains hd fun _ _ => id).holdsData hd
  more _ := id
  fresh _ := .inl

theorem FunctionHost.gains (h : w.FunctionHost n card s C) (hd : w.HoldsData C)
    (hg : w.Gains C v) : v.FunctionHost n card s (w.gained C v) := by
  have hm := hg.later.moves fun _ => False
  refine (h.kept (hm.keepsClass h.methods.rooted not_false) (hg.retains hd) hm.objects
    fun k _ x => hm.cells k x not_false).mono (hg.below hd).cell fun k hk hc => ?_
  exact hc.1.elim (h.shelf.apart k hk) fun hle => Nat.not_lt_of_le hle (h.shelf.lt hk)

theorem ServingHost.gains (h : w.ServingHost n served C) (hd : w.HoldsData C)
    (hg : w.Gains C v) : v.ServingHost n served (w.gained C v) := by
  have hm := hg.later.moves fun _ => False
  exact (h.kept (hm.keepsClass h.methods.rooted not_false) (hg.retains hd) hm.objects
    fun k _ x => hm.cells k x not_false).mono (hg.below hd).cell

end World

namespace Machine

open World

variable {w v : World} {n : Nat} {C : Nat → Prop} {card : FunctionCard} {s : Shelf}
  {served : ServingCard} {name : String} {args : List Literal} {named : Literal.Rows}
  {x : Except Fault Value}

theorem mem_declaredNames : ∀ key ∈ ["_name", "_description"], key ∈ declaredNames := by
  decide

theorem callTitling_cases (k : Nat) {title description : Value} (hd : w.HoldsData C)
    (h : ∀ u, w.Gains C u → u.Titled n title description (w.gained C u)) {method : HostMethod}
    (hm : method ∈ titling) (hp : Plain name)
    (hf : ∃ k, w.find? (.made n) name = some (k, .ofClass (.bundled (.host method))))
    (hr : ((nested (k + 1)).callAttribute (World.classValue (.made n)) name args named).exec w =
      (x, v)) :
    w.Gains C v ∨ ∃ u, ∃ key ∈ ["_name", "_description"], ∃ y : Value, w.Gains C u ∧
      y.Within (u.data (w.gained C u)) ∧ v = u.setAttribute n key (.value y) := by
  have works : method ∉ ofObjects := by
    simp only [titling, List.mem_cons, List.not_mem_nil, or_false] at hm
    rcases hm with rfl | rfl | rfl <;> decide
  obtain ⟨f, -, hg⟩ | ⟨u, u₁, xs, rows, hxs, hrows, hr⟩ := callMethod_cases k hd hp works hf hr
  · exact .inl hg
  obtain ⟨hg, hxs, hrows⟩ := hd.written hxs hrows
  rcases of_titling _ hg.data (h u hg) hm (fun y hy => (hxs y hy).1)
    (fun row hr => (hrows row hr).1) hr with rfl | ⟨key, hk, y, hy, rfl⟩
  · exact .inl hg
  · exact .inr ⟨u, key, hk, y, hg, hy, rfl⟩

theorem callFunction_declared (k : Nat) (hb : w.Bundled) (hd : w.HoldsData C)
    (h : w.FunctionHost n card s C) (hname : name ∈ functionDeclarations)
    (hr : ((nested (k + 3)).callAttribute (World.classValue (.made n)) name args named).exec w =
      (x, v)) :
    ∃ C' card' rows, w.Declared v n ["_name", "_description"] (· = s.cell) C C' ∧ v.FunctionHost n card' ⟨s.cell, rows⟩ C' ∧
      ∀ row ∈ rows, row ∈ s.rows ∨ w.cells.length ≤ row.2.2 := by
  have titled {method : HostMethod} (hm : method ∈ titling) (hp : Plain name)
      (hin : (name, method) ∈ functionMethods) :
      ∃ C' card' rows, w.Declared v n ["_name", "_description"] (· = s.cell) C C' ∧ v.FunctionHost n card' ⟨s.cell, rows⟩ C' ∧
        ∀ row ∈ rows, row ∈ s.rows ∨ w.cells.length ≤ row.2.2 := by
    obtain ⟨j, hj⟩ := h.methods.finds _ hin
    rcases callTitling_cases (k + 2) hd (fun u hg => (h.gains hd hg).toTitled) hm hp ⟨_, hj⟩ hr with
      hg | ⟨u, key, hk, y, hg, hy, rfl⟩
    · exact ⟨_, card, s.rows, hg.declared hd n _ _, h.gains hd hg, fun _ => .inl⟩
    · have hkey := mem_declaredNames key hk
      have hu := h.gains hd hg
      exact ⟨_, _, s.rows, (hg.declared hd n _ _).trans (hu.toTitled.declared hg.data hkey hk y _),
        hu.declare hkey hy, fun _ => .inl⟩
  simp only [functionDeclarations, List.mem_cons, List.not_mem_nil, or_false] at hname
  rcases hname with rfl | rfl | rfl
  · exact titled (show HostMethod.functionName ∈ titling by decide) ⟨by decide, by decide⟩ (by decide)
  · exact titled (show HostMethod.description ∈ titling by decide) ⟨by decide, by decide⟩ (by decide)
  · obtain ⟨j, hj⟩ := h.methods.finds ("param", .param) (by decide)
    obtain ⟨f, -, hg⟩ | ⟨u, u₁, xs, rows, hxs, hrows, hr⟩ := callMethod_cases (k + 2) hd
      ⟨by decide, by decide⟩ (by decide) ⟨_, hj⟩ hr
    · exact ⟨_, card, s.rows, hg.declared hd n _ _, h.gains hd hg, fun _ => .inl⟩
    obtain ⟨hg, hin, hnamed⟩ := hd.written hxs hrows
    have hu := h.gains hd hg
    rcases of_param k hu (hg.later.bundled hb) hg.data hin hnamed hr with
      ⟨rfl, -⟩ | ⟨arg, text, rows', -, -, -, hl, hs, hnew⟩
    · exact ⟨_, card, s.rows, hg.declared hd n _ _, hu, fun _ => .inl⟩
    have hm := hl.moves fun _ => False
    have apart : ∀ i, w.gained C u i → ¬ i = s.cell := by
      rintro _ hi rfl
      exact hu.shelf.apart _ List.mem_cons_self hi
    have hret := hm.retains hg.data apart
    refine ⟨_, _, rows', (hg.declared hd n _ _).trans ⟨hm.mono (fun _ => id) fun _ => False.elim,
      fun _ hk key _ => hl.find? hk key, hl.names, hret.holdsData hg.data, fun _ => id, fun _ => .inl⟩,
      hu.reshelved hm hret not_false hs rfl, fun row hrow => ?_⟩
    exact (hnew row hrow).imp id fun hle => Nat.le_trans hg.later.cells_le hle

theorem callServing_declared (k : Nat) (hb : w.Bundled)
    (he : name = "input_schema" → w.extras = []) (hd : w.HoldsData C)
    (h : w.ServingHost n served C) (hname : name ∈ servingDeclarations)
    (hr : ((nested (k + 3)).callAttribute (World.classValue (.made n)) name args named).exec w =
      (x, v)) :
    ∃ C' served', w.Declared v n declaredNames (fun _ => False) C C' ∧ v.ServingHost n served' C' ∧
      ∀ i, v.HasSchemaCell n i → w.HasSchemaCell n i ∨ w.cells.length ≤ i := by
  have gained {u : World} (hg : w.Gains C u) (i : Nat) (hi : u.HasSchemaCell n i) :
      w.HasSchemaCell n i :=
    hi.of_moves (hg.later.moves fun _ => False) h not_false
  have added {u : World} (hg : w.Gains C u) :
      ∃ C' served', w.Declared u n declaredNames (fun _ => False) C C' ∧ u.ServingHost n served' C' ∧
        ∀ i, u.HasSchemaCell n i → w.HasSchemaCell n i ∨ w.cells.length ≤ i :=
    ⟨_, served, hg.declared hd n _ _, h.gains hd hg, fun i hi => .inl (gained hg i hi)⟩
  have titled {method : HostMethod} (hm : method ∈ titling) (hp : Plain name)
      (hin : (name, method) ∈ servingMethods) :
      ∃ C' served', w.Declared v n declaredNames (fun _ => False) C C' ∧ v.ServingHost n served' C' ∧
        ∀ i, v.HasSchemaCell n i → w.HasSchemaCell n i ∨ w.cells.length ≤ i := by
    obtain ⟨j, hj⟩ := h.methods.finds _ hin
    rcases callTitling_cases (k + 2) hd (fun u hg => (h.gains hd hg).toTitled) hm hp ⟨_, hj⟩ hr with
      hg | ⟨u, key, hk, y, hg, hy, rfl⟩
    · exact added hg
    · have hkey := mem_declaredNames key hk
      have hu := h.gains hd hg
      obtain ⟨hhost, hcells⟩ := hu.declare hk hy
      exact ⟨_, _, (hg.declared hd n _ _).trans (hu.toTitled.declared hg.data hkey hkey y _), hhost,
        fun i hi => .inl (gained hg i (hcells i hi))⟩
  simp only [servingDeclarations, List.mem_cons, List.not_mem_nil, or_false] at hname
  rcases hname with rfl | rfl | rfl
  · exact titled (show HostMethod.servedName ∈ titling by decide) ⟨by decide, by decide⟩ (by decide)
  · exact titled (show HostMethod.description ∈ titling by decide) ⟨by decide, by decide⟩ (by decide)
  · obtain ⟨j, hj⟩ := h.methods.finds ("input_schema", .inputSchema) (by decide)
    obtain ⟨f, -, hg⟩ | ⟨u, u₁, xs, rows, hxs, hrows, hr⟩ := callMethod_cases (k + 2) hd
      ⟨by decide, by decide⟩ (by decide) ⟨_, hj⟩ hr
    · exact added hg
    obtain ⟨hg, hin, hnamed⟩ := hd.written hxs hrows
    have hu := h.gains hd hg
    have two {t : World} (hg' : u.Gains (w.gained C u) t) :=
      (hg.declared hd n declaredNames fun _ => False).trans (hg'.declared hg.data n _ _)
    rcases inputSchema_cases k (hg.later.bundled hb) (hg.later.extras.trans (he rfl)) hg.data hu
      (fun x hx => (hin x hx).1) (fun row hr => (hnamed row hr).1) hr with
      hg' | ⟨t, i, j, -, hg', hi, hj, rfl⟩
    · exact ⟨_, served, two hg', hu.gains hg.data hg', fun i hi =>
        .inl (gained hg i (hi.of_moves (hg'.later.moves fun _ => False) hu not_false))⟩
    · have ht := hu.gains hg.data hg'
      obtain ⟨-, hhost, hcells⟩ := ht.withSchema hg'.data hi hj
      have hl : t.Later (t.withObjectOf Shape.inputSchema.cls [("properties", cellValue i),
          ("required", cellValue j)]) fun _ => False := (Later.refl t _).withObjectOf _ _
      have made := hl.declared hg'.data n declaredNames fun _ => False
      have titled := ht.toTitled.kept
        ((hl.moves fun _ => False).keepsClass ht.methods.rooted not_false)
        (hl.retains hg'.data fun _ _ => id)
      refine ⟨_, _, (two hg').trans (made.trans
        (titled.declared made.data (by decide) (by decide) _ _)), hhost, fun l hl => .inr ?_⟩
      rw [hcells l hl]
      exact Nat.le_trans hg.later.cells_le hg'.later.cells_le

end Machine

end Toolwright
