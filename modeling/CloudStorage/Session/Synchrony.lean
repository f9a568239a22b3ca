import CloudStorage.Session.Menu
import CloudStorage.Session.Sample

/-! A whole session, from the login on: no counter is ever wrong, and both sides hold the
same key and counter whenever both are back at the top of their loops. -/
namespace CloudStorage
open Interaction Code Method Party

namespace Lockstep
variable {C : Crypto} {F G : Computer} {host : Endian}

/-- Both programs before their first call. -/
def opening (C : Crypto) (F G : Computer) (host : Endian) (rounds : Nat) (s t : Session octets)
    (files : F.State) (storage : G.State) : Pair C F G (Option Int) Unit :=
  ⟨Client.run host rounds s, Server.run host (rounds + 1) t, busy files, busy storage, [], []⟩

section Login
variable {ends : Pair C F G (Option Int) Unit → Prop} {files : F.State} {storage : G.State}
  {rounds : Nat} {s t : Session octets}

/-- A client that does not get through its login leaves the server waiting for M1. -/
theorem unconnected {value : Option Int} (free : ∀ c, ends c) :
    At ends (.done value) (Server.run host rounds t) files storage := by
  refine .stop rfl rfl ?_ ?_ nofun (free _)
  · rintro ⟨_, _, ⟨⟩, -⟩
  · rintro ⟨_, _, ⟨⟩, enough⟩
    exact absurd enough (Nat.not_succ_le_zero _)

theorem run_eq (host : Endian) (rounds : Nat) (s : Session octets) :
    Client.run host rounds s = (Client.session host rounds s).bind reports := by
  refine congrArg (Client.session host rounds s).bind (funext ?_)
  rintro ⟨result, t⟩
  cases result with
  | error _ => rfl
  | ok _ => rfl

theorem session (free : ∀ c, ends c) (small : Small storage) :
    At ends (Client.run host rounds s) (Server.run host (rounds + 1) t) files storage := by
  rw [run_eq, Client.session, Client.login]
  simp only [Code.bind_assoc]
  refine local_left rfl (ask_line (safe_left files) (busy_atWork files)) fun m_username _ => ?_
  rw [run_modify]
  refine local_left rfl (ask_line (safe_left files) (busy_atWork files)) fun password _ => ?_
  by_cases refused : ¬FileManager.isStringValid m_username = true ∨
      ¬FileManager.isStringValid password = true
  · rw [if_pos refused]
    exact unconnected free
  rw [if_neg refused]
  have name : FileManager.isStringValid m_username = true := by
    by_cases valid : FileManager.isStringValid m_username = true
    · exact valid
    · exact absurd (.inl valid) refused
  simp only [Code.bind_assoc]
  refine local_left rfl (ask_unlock safe_left _ _) fun found _ => ?_
  cases found with
  | missing => exact unconnected free
  | unreadable => exact unconnected free
  | key =>
      refine local_left rfl (ask_connect safe_left) fun connected _ => ?_
      cases connected with
      | false => exact unconnected free
      | true =>
          rw [if_neg (not_not.mpr rfl)]
          rw [Server.run, Server.session]
          refine authenticate name fun key => ?_
          rw [if_neg (not_not.mpr rfl)]
          exact settle (menu free (Nat.le_refl _) name small)

end Login

/-- Whatever the operations are and wherever the counter wraps, no counter check fails,
and both sides agree whenever they are back at the top of their loops. -/
theorem session_in_step (C : Crypto) (F G : Computer) (host : Endian) (rounds : Nat)
    (s t : Session octets) (files : F.State) (storage : G.State)
    (small : ∀ length, G.Holds storage length → length < 2 ^ 32)
    {c : Pair C F G (Option Int) Unit}
    (run : Link.Reaches (opening C F G host rounds s t files storage) c) :
    c.here.sound = true ∧ c.there.sound = true ∧
      (c.here.idle.isSome = true → c.there.idle.isSome = true → c.toRight = [] →
        c.there.idle = c.here.idle) := by
  have good : Link.Good (pact fun _ => True) c := (session (fun _ => trivial) small).reaches run
  refine ⟨good.safe.1, good.safe.2, fun here there empty => ?_⟩
  exact good.agree here there empty there

/-- Luca logs in and lists a directory of one file, until he is back at the menu. -/
def logged : Pair Sample.crypto Sample.computer Sample.computer (Option Int) Unit :=
  opening _ _ _ .little 2 ⟨[], 0, []⟩ ⟨[], 0, []⟩ Sample.empty
    (Sample.single (ascii "../data/luca/notes.txt"))

def listed : Pair Sample.crypto Sample.computer Sample.computer (Option Int) Unit :=
  logged.play (Sample.clerk .client) (Sample.clerk .server) 77

/-- Both are back at the top of their loops, after three messages. -/
theorem session_in_step_sample :
    Link.Reaches logged listed ∧ listed.here.idle = some (List.replicate Config.AES_KEY_LEN 0, 3) ∧
      listed.there.idle = listed.here.idle ∧ listed.here.sound = true ∧ listed.there.sound = true := by
  have run : Link.Reaches logged listed := Link.play_reaches 77 _
  have here : listed.here.idle = some (List.replicate Config.AES_KEY_LEN 0, 3) := by decide +kernel
  have there : listed.there.idle.isSome = true := by decide +kernel
  have empty : listed.toRight = [] := by decide +kernel
  have agreed := session_in_step _ _ _ _ _ _ _ _ _ (fun _ => Sample.single_holds) run
  exact ⟨run, here, agreed.2.2 (by rw [here]; rfl) there empty, agreed.1, agreed.2.1⟩

end Lockstep
end CloudStorage
