import OtaBoot.Reception
import OtaBoot.StagingGate

set_option autoImplicit false

namespace OtaBoot

open Mem

/-- A complete image followed by more bytes, where the expected CRC is that of all of them. -/
def Surplus (s : List Byte) (crc : Word) : Prop :=
  ¬ Incomplete s ∧ (streamLength s).toNat < s.length - 8 ∧ crc32Calculate (s.drop 8) = crc

/-- The image of a session that ends in CONFIRM has the length its header announces. -/
def LengthAnnounced (o : Ota) (chains : List (List Pbuf)) : Prop :=
  ∀ faults nor after, otaPoll faults (o.session chains) nor = (.done .confirm, after) →
    (o.session chains).expected = (streamLength (streamOf chains)).toNat ∧
      (o.session chains).received = (o.session chains).expected

theorem foldl_recvData_crcExpected (chains : List (List Pbuf)) : ∀ o : Ota,
    (chains.foldl Ota.recvData o).crcExpected = o.crcExpected := by
  induction chains with
  | nil =>
      intro o
      rfl
  | cons chain rest ih =>
      intro o
      rw [List.foldl_cons, ih]
      exact (Ota.recvData_state chain o).1

/-- The CRC expected of a session is the one set before it. -/
theorem session_crcExpected (o : Ota) (chains : List (List Pbuf)) :
    (o.session chains).crcExpected = o.crcExpected := by
  have started : (o.serverStart .listening).1.acceptCb.crcExpected = o.crcExpected := by
    unfold Ota.serverStart Ota.serverStop
    cases o.clientPcb <;> rfl
  unfold Ota.session
  obtain ⟨_, _, _, fin, -⟩ :=
    Ota.recvFin_eq true (chains.foldl Ota.recvData (o.serverStart .listening).1.acceptCb)
  rw [fin]
  exact (foldl_recvData_crcExpected chains _).trans started

/-- CONFIRM is reached only with a complete stream whose payload has the expected CRC. -/
theorem session_confirmed {o : Ota} {chains : List (List Pbuf)} {faults : PollFaults}
    {nor after : Mem} (run : otaPoll faults (o.session chains) nor = (.done .confirm, after)) :
    ¬ Incomplete (streamOf chains) ∧ crc32Calculate ((streamOf chains).drop 8) = o.crcExpected := by
  have decided := session_decided_by_stream o chains
  have complete : ¬ Incomplete (streamOf chains) := by
    intro incomplete
    rcases otaPoll_cases faults _ nor after _ run with ⟨-, same⟩ | ⟨verify, -⟩
    · rw [decided.1 incomplete] at same
      cases same
    · rw [decided.1 incomplete] at verify
      cases verify
  obtain ⟨state, -, -, image⟩ := decided.2 complete
  refine ⟨complete, ?_⟩
  rcases otaPoll_cases faults _ nor after _ run with ⟨other, -⟩ | ⟨-, failed | ⟨-, verified⟩⟩
  · exact absurd state other
  · cases failed
  · have sram := verified.sram
    rw [image, session_crcExpected] at sram
    exact sram

/-- A complete stream whose payload has the expected CRC is confirmed by a chip that works. -/
theorem session_confirms {o : Ota} {chains : List (List Pbuf)}
    (complete : ¬ Incomplete (streamOf chains))
    (crc : crc32Calculate ((streamOf chains).drop 8) = o.crcExpected) (nor : Mem) :
    (otaPoll .clean (o.session chains) nor).1 = .done .confirm := by
  obtain ⟨state, -, received, image⟩ := (session_decided_by_stream o chains).2 complete
  have fits : (o.session chains).received ≤ otaBufSize := by
    rw [received]
    by_contra large
    exact complete (.inr (.inr (.inl (by omega))))
  have verdict := (otaPoll_faultless PollFaults.clean_faultless _ state fits nor).1
  rw [image, session_crcExpected, if_pos crc] at verdict
  exact verdict

/-- Bytes past the announced end are taken into the image. -/
theorem surplus_not_announced {o : Ota} {chains : List (List Pbuf)}
    (surplus : Surplus (streamOf chains) o.crcExpected) : ¬ LengthAnnounced o chains := by
  obtain ⟨complete, more, crc⟩ := surplus
  have confirmed := session_confirms complete crc fun _ => 0xFF
  obtain ⟨-, expected, received, -⟩ := (session_decided_by_stream o chains).2 complete
  intro announced
  have same := (announced .clean (fun _ => 0xFF) _ (Prod.ext confirmed rfl)).2
  omega

/-- The close of the client only asks for at least the announced length: exactly the streams
with bytes past the announced end whose payload has the expected CRC are taken too long. -/
theorem session_length_iff (o : Ota) (chains : List (List Pbuf)) :
    LengthAnnounced o chains ↔ ¬ Surplus (streamOf chains) o.crcExpected := by
  have decided := (session_decided_by_stream o chains).2
  constructor
  · intro announced surplus
    exact surplus_not_announced surplus announced
  · intro exact faults nor after run
    obtain ⟨complete, crc⟩ := session_confirmed run
    obtain ⟨-, expected, received, -⟩ := decided complete
    have enough : (streamLength (streamOf chains)).toNat ≤ (streamOf chains).length - 8 := by
      by_contra less
      exact complete (.inr (.inr (.inr (.inr (by omega)))))
    refine ⟨expected, ?_⟩
    by_contra other
    exact exact ⟨complete, by omega, crc⟩

/-- The header announces one byte, two follow. -/
def surplusByte : List (List Pbuf) :=
  [[⟨[0x4F, 0x54, 0x41, 0x00, 0x01, 0x00, 0x00, 0x00, 0x22, 0x33], by decide⟩]]

/-- A receiver told to expect the CRC of both bytes. -/
def surplusReceiver : Ota := { Ota.initial (fun _ => 0) with crcExpected := 0x59BB35C9 }

theorem session_length_surplusByte :
    (otaPoll .clean (surplusReceiver.session surplusByte) fun _ => 0xFF).1 = .done .confirm ∧
      (surplusReceiver.session surplusByte).received = 2 ∧
      (surplusReceiver.session surplusByte).expected = 1 ∧
      ¬ (∀ o chains, LengthAnnounced o chains) := by
  have complete : ¬ Incomplete (streamOf surplusByte) := by
    unfold Incomplete
    decide
  have crc : crc32Calculate ((streamOf surplusByte).drop 8) = surplusReceiver.crcExpected := by
    decide +kernel
  obtain ⟨-, expected, received, -⟩ :=
    (session_decided_by_stream surplusReceiver surplusByte).2 complete
  have length : (streamOf surplusByte).length - 8 = 2 := by decide
  have announced : (streamLength (streamOf surplusByte)).toNat = 1 := by decide
  have surplus : Surplus (streamOf surplusByte) surplusReceiver.crcExpected :=
    ⟨complete, by rw [length, announced]; decide, crc⟩
  rw [length] at received
  rw [announced] at expected
  refine ⟨session_confirms complete crc _, received, expected, ?_⟩
  intro every
  exact surplus_not_announced surplus (every surplusReceiver surplusByte)

end OtaBoot
