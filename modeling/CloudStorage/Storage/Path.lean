import CloudStorage.Config
import Mathlib.Data.List.Basic

/-! Path resolution without symbolic links: '/' separates components, "" and "." stay
where they are and ".." goes to the parent. A directory is the list of names that lead
to it from the root. -/
namespace CloudStorage
namespace Path

def slash : UInt8 := 47

def components (path : Bytes) : List Bytes := path.splitOn slash

/-- The parent of the root is the root. -/
def step (directory : List Bytes) (component : Bytes) : List Bytes :=
  if component = [] ∨ component = ascii "." then directory
  else if component = ascii ".." then directory.dropLast
  else directory ++ [component]

def walk (directory : List Bytes) (path : List Bytes) : List Bytes := path.foldl step directory

/-- Where a relative path leads. -/
def resolve (directory : List Bytes) (path : Bytes) : List Bytes :=
  walk directory (components path)

/-- The directory itself or a direct child of it. -/
def Within (directory place : List Bytes) : Prop :=
  place = directory ∨ ∃ child, place = directory ++ [child]

/-- A path reduced to how far it climbs and which names it then descends by. -/
structure Route where
  ups : Nat
  downs : List Bytes
  deriving DecidableEq

def Route.step (route : Route) (component : Bytes) : Route :=
  if component = [] ∨ component = ascii "." then route
  else if component = ascii ".." then
    if route.downs = [] then ⟨route.ups + 1, []⟩ else ⟨route.ups, route.downs.dropLast⟩
  else ⟨route.ups, route.downs ++ [component]⟩

def route (path : List Bytes) : Route := path.foldl Route.step ⟨0, []⟩

/-- The path descends again by the very names it climbed, and then at most one more. -/
def Retraces (directory : List Bytes) (path : Bytes) : Bool :=
  let route := route (components path)
  let climbed := directory.drop (directory.length - route.ups)
  climbed.isPrefixOf route.downs && route.downs.length ≤ climbed.length + 1

theorem resolve_append (directory : List Bytes) (first rest : Bytes) :
    resolve directory (first ++ slash :: rest) = resolve (resolve directory first) rest := by
  simp only [resolve, components, walk, List.splitOn_append_cons_self, List.foldl_append]

/-- Taking a route from a directory. -/
def Route.from_ (route : Route) (directory : List Bytes) : List Bytes :=
  directory.take (directory.length - route.ups) ++ route.downs

theorem Route.step_from (route : Route) (directory : List Bytes) (component : Bytes) :
    Path.step (route.from_ directory) component = (route.step component).from_ directory := by
  obtain ⟨ups, downs⟩ := route
  simp only [Path.step, Route.step, from_]
  by_cases stay : component = [] ∨ component = ascii "."
  · rw [if_pos stay, if_pos stay]
  · rw [if_neg stay, if_neg stay]
    by_cases up : component = ascii ".."
    · rw [if_pos up, if_pos up]
      by_cases top : downs = []
      · subst top
        simp only [if_true, List.append_nil, List.dropLast_eq_take, List.length_take,
          List.take_take]
        congr 1
        omega
      · simp only [top, if_false, List.dropLast_append_of_ne_nil top]
    · simp only [up, if_false, List.append_assoc]

theorem walk_route (directory : List Bytes) (path : List Bytes) :
    walk directory path = (route path).from_ directory := by
  have general : ∀ start : Route,
      walk (start.from_ directory) path = (path.foldl Route.step start).from_ directory := by
    induction path with
    | nil => exact fun _ => rfl
    | cons component path ih =>
        intro start
        simp only [walk, List.foldl_cons, Route.step_from]
        exact ih _
  have origin : directory = Route.from_ ⟨0, []⟩ directory := by
    simp only [Route.from_, Nat.sub_zero, List.take_length, List.append_nil]
  calc walk directory path = walk (Route.from_ ⟨0, []⟩ directory) path := by rw [← origin]
    _ = (route path).from_ directory := general _

/-- A list that starts with another and is at most one longer. -/
theorem prefix_one_more {climbed downs : List Bytes} :
    (downs = climbed ∨ ∃ child, downs = climbed ++ [child]) ↔
      climbed <+: downs ∧ downs.length ≤ climbed.length + 1 := by
  constructor
  · rintro (rfl | ⟨child, rfl⟩)
    · exact ⟨List.prefix_rfl, Nat.le_succ _⟩
    · exact ⟨List.prefix_append _ _, by simp only [List.length_append, List.length_singleton,
        Nat.le_refl]⟩
  · rintro ⟨⟨rest, rfl⟩, short⟩
    match rest with
    | [] => exact .inl (List.append_nil _)
    | [child] => exact .inr ⟨child, rfl⟩
    | _ :: _ :: _ =>
        simp only [List.length_append, List.length_cons] at short
        omega

instance (directory place : List Bytes) : Decidable (Within directory place) :=
  decidable_of_iff _ prefix_one_more.symm

/-- A path stays within the directory exactly if it retraces its steps. -/
theorem within_iff_retraces (directory : List Bytes) (path : Bytes) :
    Within directory (resolve directory path) ↔ Retraces directory path = true := by
  simp only [resolve, walk_route, Retraces, Bool.and_eq_true, decide_eq_true_eq,
    List.isPrefixOf_iff_prefix]
  obtain ⟨ups, downs⟩ := route (components path)
  rw [← prefix_one_more]
  have whole := List.take_append_drop (directory.length - ups) directory
  simp only [Within, Route.from_]
  generalize directory.take (directory.length - ups) = front at whole ⊢
  generalize directory.drop (directory.length - ups) = climbed at whole ⊢
  subst whole
  simp only [List.append_assoc, List.append_cancel_left_eq]

end Path
end CloudStorage
