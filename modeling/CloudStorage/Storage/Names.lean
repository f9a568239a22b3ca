import CloudStorage.Server
import CloudStorage.Storage.Path

/-! Names that pass `isStringValid`: where the paths built from them lead, and what is
left of them in a field of a message. -/
namespace CloudStorage

theorem cPrefix_clean {name : Bytes} (clean : (0 : UInt8) ∉ name) : cPrefix name = name := by
  apply List.takeWhile_eq_self_iff.mpr
  intro byte member
  apply decide_eq_true
  rintro rfl
  exact clean member

namespace Path

/-- A component that is itself a name in its directory. -/
def Proper (component : Bytes) : Prop :=
  slash ∉ component ∧ component ≠ [] ∧ component ≠ ascii "." ∧ component ≠ ascii ".."

theorem Proper.components {component : Bytes} (proper : Proper component) :
    components component = [component] :=
  List.splitOn_eq_singleton proper.1

theorem components_append (first rest : Bytes) :
    components (first ++ slash :: rest) = components first ++ components rest := by
  simp only [components, List.splitOn_append_cons_self]

theorem Proper.step {component : Bytes} (proper : Proper component) (directory : List Bytes) :
    step directory component = directory ++ [component] := by
  obtain ⟨-, some_, stays, climbs⟩ := proper
  rw [Path.step, if_neg (not_or.mpr ⟨some_, stays⟩), if_neg climbs]

/-- A proper name below a path leads to a child of where the path leads. -/
theorem Proper.resolve {component : Bytes} (proper : Proper component) (directory : List Bytes)
    (path : Bytes) :
    resolve directory (path ++ slash :: component) = Path.resolve directory path ++ [component] := by
  rw [resolve_append]
  generalize Path.resolve directory path = place
  rw [Path.resolve, proper.components]
  exact proper.step place

end Path

open CloudStorage.Path

theorem FileManager.proper_component {name : Bytes} (valid : isStringValid name = true) :
    Proper name := by
  obtain ⟨⟨some_, -⟩, listed, stays, climbs⟩ := isStringValid_iff.mp valid
  refine ⟨?_, List.length_pos_iff.mp some_, stays, climbs⟩
  intro member
  exact absurd (listed slash member) (by decide)

/-- The check accepts exactly the safe names. A file of a user lies directly in the directory
of the user, which lies directly in `../data`, under its own name; and a name comes back from
its field as it was. -/
theorem FileManager.isStringValid_safe :
    (∀ name, isStringValid name = true ↔
      (1 ≤ name.length ∧ name.length ≤ Config.FILE_NAME_LEN - 1) ∧
        (∀ byte ∈ name, byte ∈ whitelist) ∧ name ≠ ascii "." ∧ name ≠ ascii "..") ∧
    (∀ username filename directory, isStringValid username = true →
      isStringValid filename = true →
        components (storagePath username filename) =
            [ascii "..", ascii "data", username, filename] ∧
        resolve directory (storagePath username filename) =
            resolve directory (ascii "../data/" ++ username) ++ [filename] ∧
        resolve directory (ascii "../data/" ++ username) =
            resolve directory (ascii "../data") ++ [username]) ∧
    ∀ name, isStringValid name = true →
      cPrefix (strncpy (cPrefix name) Config.FILE_NAME_LEN) = name := by
  refine ⟨fun _ => isStringValid_iff, ?_, ?_⟩
  · intro username filename directory user file
    have user := proper_component user
    have file := proper_component file
    have path : storagePath username filename =
        (ascii "../data" ++ slash :: username) ++ slash :: filename := by
      rw [storagePath, storageDirectory, List.append_assoc]
      rfl
    have base : ascii "../data/" ++ username = ascii "../data" ++ slash :: username := rfl
    refine ⟨?_, ?_, ?_⟩
    · rw [path, components_append, components_append, user.components, file.components]
      rfl
    · rw [path, base]
      exact file.resolve directory _
    · rw [base]
      exact user.resolve directory _
  · intro name valid
    obtain ⟨clean, short⟩ := clean_of_valid valid
    rw [cPrefix_clean clean]
    exact cPrefix_strncpy clean short

theorem FileManager.isStringValid_safe_sample :
    isStringValid (ascii "a.b") = true ∧
      resolve [ascii "home", ascii "src"] (storagePath (ascii "luca") (ascii "a.b")) =
        [ascii "home", ascii "data", ascii "luca", ascii "a.b"] ∧
      cPrefix (strncpy (cPrefix (ascii "a.b")) Config.FILE_NAME_LEN) = ascii "a.b" := by
  obtain ⟨-, paths, fields⟩ := isStringValid_safe
  have valid : isStringValid (ascii "a.b") = true := by decide
  have user : isStringValid (ascii "luca") = true := by decide
  obtain ⟨-, below, under⟩ := paths _ _ [ascii "home", ascii "src"] user valid
  refine ⟨valid, ?_, fields _ valid⟩
  rw [below, under]
  decide

end CloudStorage
