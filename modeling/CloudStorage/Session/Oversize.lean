import CloudStorage.Interaction.Alone
import CloudStorage.Session.Cargo

/-! A client that downloads a file whose size does not fit `DownloadM2`. Whatever comes from
the server, it writes fewer than `2 ^ 32` bytes. -/
namespace CloudStorage
open Interaction Code Method

namespace Loose

variable {C : Crypto} {H : Habit} {role : Role} {host : Endian} {b : Bench} {s : Session octets}
  {α β : Type}

/-- What a client has done that reports a download as successful. -/
def Filled (here : Bytes) (entries : List Entry) : Prop :=
  ∃ scene scene' writer creating writes chunks,
    entries = ⟨scene, .ifstream_open here, false⟩ :: (creating ++ writes) ∧
    OpensWrite scene' here writer creating ∧ Writes writer.m_stream writes chunks ∧
    chunks.flatten.length < 2 ^ 32

theorem stable_diary {kind : Op → Prop} (free : ∀ op, kind op → FileFree op) {diary : List Entry} :
    (loose C H role).alone.Stable kind fun after => after.diary = diary := by
  rintro g _ same rfl op isKind answer -
  have isFree := free op isKind
  refine ⟨trivial, ?_⟩
  cases op with
  | file call => exact isFree.elim
  | note remark =>
      cases remark with
      | _ => exact same
  | _ => exact same

theorem quiet_alone {c : Method α} (free : c.Confined FileFree) :
    c.wp (loose C H role).alone (fun _ _ after => after.diary = b.diary) s b := by
  apply Program.wp_mono _ (Program.confined_invariant (free s) (stable_diary fun _ => id) rfl)
  rintro _ _ ⟨-, same⟩ _ _
  exact same

theorem kept_alone {kind : Op → Prop} (free : ∀ op, kind op → FileFree op) {c : Method α}
    {known : α → Prop} (keeps : c.Keeps kind known) :
    c.wp (loose C H role).alone (fun value _ after => known value ∧ after.diary = b.diary) s b := by
  apply wp_mono _ (keeps.invariant (stable_diary free) rfl)
  rintro _ _ _ ⟨-, holds, same⟩
  exact ⟨holds, same⟩

/-- What is returned for a failure is not `SUCCESS`. -/
abbrev Fails (failure : Option Nat) : Prop := ∀ code, failure = some code → code ≠ Return.SUCCESS.val

theorem sendGeneric_fails (plaintext : Bytes) : (sendGeneric plaintext).Keeps Handshake Fails := by
  apply Keeps.bind (Server.encryptGeneric_keeps plaintext)
  intro message _
  cases message with
  | none =>
      apply Keeps.pure
      rintro _ ⟨⟩
      decide
  | some message =>
      apply Keeps.bind (Keeps.invoke (.send _))
      intro sent _
      apply Keeps.ite
      · intro _
        apply Keeps.pure
        rintro _ ⟨⟩
        decide
      · exact fun _ => Keeps.pure nofun

theorem receiveGeneric_fails (plaintext_len : Nat) :
    (receiveGeneric plaintext_len).Keeps FileFree
      fun received => ∀ code, received = .error code → code.val ≠ Return.SUCCESS.val := by
  have calls : ∀ op, FileFree op → (ask op).Keeps FileFree := fun _ isFree => Keeps.invoke isFree
  apply Keeps.bind (calls (.receive _) trivial)
  rintro ⟨result, buffer⟩ _
  apply Keeps.ite
  · intro _
    apply Keeps.pure
    rintro _ ⟨⟩
    decide
  intro _
  apply Keeps.bind Keeps.get
  intro s _
  apply Keeps.bind (calls (.ssl (.decrypt _ _ _)) trivial)
  intro decrypted _
  cases decrypted with
  | none =>
      apply Keeps.pure
      rintro _ ⟨⟩
      decide
  | some plaintext =>
      apply Keeps.bind (calls (.note (.checked _ _)) trivial)
      intro _ _
      apply Keeps.ite
      · intro _
        apply Keeps.pure
        rintro _ ⟨⟩
        decide
      intro _
      apply Keeps.bind (calls (.note (.accepted _ _ _)) trivial)
      intro _ _
      exact Keeps.pure nofun

theorem filed_alone {c : Method α} {known : α → List Entry → Prop}
    (filed : c.ensures ((loose C H role).desk fun _ => True) (Filed C H role s b known) s
      ⟨b, [], []⟩) :
    c.wp (loose C H role).alone (fun answer _ after => ∃ entries, known answer entries ∧
      after = b.wrote entries) s b := by
  apply Program.wp_mono _ (Program.alone_of_desk filed)
  rintro _ after ⟨out, value, t, rfl, rfl, entries, holds, -, same⟩ _ ⟨⟩
  exact ⟨entries, holds, congrArg Desk.world same⟩

theorem confined_random {size : Nat} : (ask (.random size)).Confined FileFree :=
  fun _ _ _ _ _ => ⟨trivial, trivial⟩

theorem field_length_le (start size : Nat) (buffer : Bytes) :
    (field start size buffer).length ≤ size :=
  List.length_take_le ..

theorem receiveChunks_alone {writer : FileManager} {left last : Nat}
    (mode : writer.m_open_mode = .WRITE) (cut : writer.m_last_chunk_size = last) :
    (Client.receiveChunks host writer left).wp (loose C H role).alone
      (fun result _ after => Fails result ∧ (result = none → ∃ writes chunks,
        after.diary = b.diary ++ writes ∧ Writes writer.m_stream writes chunks ∧
        chunks.flatten.length ≤ Lockstep.remaining last left)) s b := by
  induction left generalizing s b with
  | zero =>
      rw [Client.receiveChunks, wp_pure]
      constructor
      · intro code failed
        cases failed
      · exact fun _ => ⟨[], [], (List.append_nil _).symm, .nil, Nat.zero_le _⟩
  | succ left ih =>
      rw [Client.receiveChunks]
      simp only [cut, Lockstep.chunkSize_eq]
      apply wp_seq (kept_alone (fun _ => id) (receiveGeneric_fails _))
      rintro received _ received_b ⟨failed, same⟩
      cases received with
      | error code =>
          rw [wp_pure]
          constructor
          · intro _ found
            exact Option.some.inj found ▸ failed code rfl
          · intro none_
            cases none_
      | ok plaintext =>
          apply wp_seq (quiet_alone Client.confined_incrementCounter)
          intro _ _ counted_b same'
          rw [wp_ite]
          refine ⟨fun _ => ?_, fun _ => ?_⟩
          · rw [wp_pure]
            constructor
            · rintro _ ⟨⟩
              decide
            · intro none_
              cases none_
          apply wp_seq (filed_alone (writeChunk_filed (fun _ => trivial) mode))
          rintro result _ _ ⟨_, ⟨rfl, rfl⟩, rfl⟩
          rw [if_neg Lockstep.sent_fine]
          apply wp_mono _ ih
          rintro result _ after ⟨fails, found⟩
          refine ⟨fails, fun none_ => ?_⟩
          obtain ⟨writes, chunks, diary, puts, few⟩ := found none_
          refine ⟨_, field 1 (Lockstep.chunkSize last left) plaintext :: chunks, ?_,
            .cons counted_b.scene puts, ?_⟩
          · rw [diary, Bench.wrote, same', same, List.append_assoc]
            rfl
          · have short := field_length_le 1 (Lockstep.chunkSize last left) plaintext
            rw [List.flatten_cons, List.length_append, Lockstep.remaining_succ]
            exact Nat.add_le_add short few

theorem downloadRequest_alone {filename : Bytes} :
    (Client.downloadRequest host filename).wp (loose C H role).alone
      (fun code _ after => code = Return.SUCCESS.val → ∃ entries,
        after.diary = b.diary ++ entries ∧ Filled (Client.localPath filename) entries) s b := by
  rw [Client.downloadRequest]
  apply wp_seq (filed_alone (isFilePresent_filed (fun _ => trivial) _))
  rintro present _ _ ⟨_, rfl, rfl⟩
  cases present with
  | true =>
      rw [if_pos rfl, wp_pure]
      exact fun wrong => absurd wrong (by decide)
  | false =>
      rw [if_neg Bool.false_ne_true]
      apply wp_seq (quiet_alone confined_random)
      intro filler _ filled_b filled
      apply wp_seq (kept_alone handshake_fileFree (sendGeneric_fails _))
      rintro failure _ sent_b ⟨fails, sent⟩
      cases failure with
      | some code => exact (wp_pure _).mpr fun success => absurd success (fails code rfl)
      | none =>
          apply wp_seq (quiet_alone Client.confined_incrementCounter)
          intro _ _ counted_b counted
          apply wp_seq (kept_alone (fun _ => id) (receiveGeneric_fails _))
          rintro received _ received_b ⟨fails, opened⟩
          cases received with
          | error code => exact (wp_pure _).mpr fun success => absurd success (fails code rfl)
          | ok plaintext =>
              apply wp_seq (quiet_alone Client.confined_incrementCounter)
              intro _ _ again_b again
              apply wp_ite.mpr
              refine ⟨fun _ => (wp_pure _).mpr fun wrong => absurd wrong (by decide), fun _ => ?_⟩
              apply wp_ite.mpr
              refine ⟨fun _ => (wp_pure _).mpr fun wrong => absurd wrong (by decide), fun _ => ?_⟩
              apply wp_seq (filed_alone (openWrite_filed (fun _ => trivial) _))
              rintro writer _ _ ⟨creating, creates, rfl⟩
              generalize (DownloadM2.deserialize host plaintext).m_file_size = file_size
              have writing : (writer.initFileInfo file_size.toNat).m_open_mode = .WRITE :=
                creates.mode
              apply wp_seq (receiveChunks_alone writing rfl)
              rintro result _ written_b ⟨fails, wrote⟩
              cases result with
              | some code => exact (wp_pure _).mpr fun success => absurd success (fails code rfl)
              | none =>
                  obtain ⟨writes, chunks, diary, puts, few⟩ := wrote rfl
                  refine (wp_pure _).mpr fun _ => ⟨_, ?_, b.scene, _, writer, creating, writes,
                    chunks, rfl, creates, puts, ?_⟩
                  · rw [diary, Bench.wrote, again, opened, counted, sent, filled, Bench.wrote]
                    exact (List.append_assoc ..).trans (List.append_assoc ..)
                  · obtain ⟨total, -⟩ := Lockstep.remaining_initFileInfo writer file_size.toNat
                    exact Nat.lt_of_le_of_lt (Nat.le_trans few (Nat.le_of_eq total))
                      file_size.toNat_lt

end Loose
end CloudStorage
