import Toolwright.Proofs.Declaration.Rows
import Toolwright.Settings.Config

/-!
# Sources of settings

Files are loaded into an environment one after another. The first source that gives a setting a value
decides it: the environment as it was at the start, then the first file, then the second one, and so
on. A file that is loaded again changes nothing.
-/

namespace Toolwright

set_option autoImplicit false

namespace Settings

variable {loader : Loader} {env after : Environment} {rows : List Binding} {file : Option String}

/-- The value that a file gives a name when it is loaded into an environment. -/
def given (loader : Loader) (env : Environment) (file : Option String) (name : String) :
    Option String :=
  (Table.find? (loader.bindings env file) name).join

def added? (env : Environment) (b : Binding) : Option (String × String) :=
  if (Table.find? env b.1).isSome then none else b.2.map (b.1, ·)

theorem of_addMissing {b : Binding} (h : addMissing env b = .ok after) :
    after = env ++ (added? env b).toList := by
  unfold addMissing at h
  unfold added?
  cases hb : b.2 with
  | none =>
    rw [hb] at h
    cases h
    cases (Table.find? env b.1).isSome <;> simp
  | some value =>
    rw [hb] at h
    by_cases hfound : (Table.find? env b.1).isSome = true
    · simp only [hfound, if_true] at h ⊢
      cases h
      simp
    · simp only [hfound] at h ⊢
      obtain ⟨-, -, h⟩ := of_bind_ok h
      cases h
      rfl

theorem added?_append {b c : Binding} (h : c.1 ≠ b.1) :
    added? (env ++ (added? env b).toList) c = added? env c := by
  have hc : Table.find? (added? env b).toList c.1 = none := by
    refine Table.find?_eq_none ?_
    intro hm
    obtain ⟨row, hrow, hkey⟩ := List.mem_map.mp hm
    unfold added? at hrow
    split at hrow
    · cases hrow
    · obtain ⟨value, -, rfl⟩ := Option.map_eq_some_iff.mp (Option.mem_toList.mp hrow)
      exact h hkey.symm
  rw [added?, Table.find?_append, hc, Option.or_none]
  rfl

theorem of_foldlM_addMissing (hn : (Table.keys rows).Nodup)
    (h : rows.foldlM addMissing env = .ok after) : after = env ++ rows.filterMap (added? env) := by
  induction rows generalizing env with
  | nil =>
    cases h
    simp
  | cons b rows ih =>
    obtain ⟨next, hnext, h⟩ := of_bind_ok h
    have hb : b.1 ∉ Table.keys rows := (List.nodup_cons.mp hn).1
    have hrest : rows.filterMap (added? next) = rows.filterMap (added? env) := by
      refine List.filterMap_congr ?_
      intro c hc
      rw [of_addMissing hnext]
      refine added?_append ?_
      intro he
      exact hb (he ▸ List.mem_map_of_mem hc)
    rw [ih (List.nodup_cons.mp hn).2 h, hrest, of_addMissing hnext, List.append_assoc, List.filterMap_cons]
    cases added? env b <;> rfl

theorem load_eq (laws : loader.Lawful) (h : loader.load env file = .ok after) :
    after = env ++ (loader.bindings env file).filterMap (added? env) :=
  of_foldlM_addMissing (laws.nodup_keys env file) ((laws.load_eq env file).symm.trans h)

namespace EnvFile

end EnvFile

end Settings

namespace Config

open Settings

variable {loader : Loader} {env after : Environment}

/-- A file that was loaded, the environment before and after, and the configuration that was read. -/
structure Loading where
  file : Option String
  before : Environment
  config : Config
  after : Environment

def Loading.gives (loader : Loader) (l : Loading) : String → Option String :=
  given loader l.before l.file

end Config

end Toolwright
