import OtaBoot.Upload
import OtaBoot.QspiCompletion

set_option autoImplicit false

/- The way back for a device that does not start any more. -/
namespace OtaBoot

/-- Power stays on during a metadata write. -/
structure MetaFaults.Powered (faults : MetaFaults) : Prop where
  erase : ∀ k, (faults.erase k).Stays
  program : ∀ i k, (faults.program i k).Stays

structure RestoreFaults.Powered (faults : RestoreFaults) : Prop where
  header : faults.header ≠ .cut
  erase : ∀ sector k, (faults.erase sector k).Stays
  read : ∀ k, faults.read k ≠ .cut
  program : ∀ k attempt, (faults.program k attempt).Stays

/-- Power stays on during the boot step; everything else in it may fail. -/
structure BootFaults.Powered (faults : BootFaults) : Prop where
  init : faults.init ≠ .cut
  restore : faults.restore.Powered
  record : faults.record.Powered

theorem returns_metadataWrite {faults : MetaFaults} (powered : faults.Powered) (record : Metadata) :
    Op.Returns (metadataWrite faults record) := by
  have erase : Op.Returns (metadataErase faults) :=
    Op.returns_anyFrom (fun k => Attempt.returns_perform (powered.erase k) _) 10 0
  have program : Op.Returns (Op.allFrom (metadataProgram faults record.sealed) 2 0) :=
    Op.returns_allFrom (fun i => Op.returns_anyFrom
      (fun k => Attempt.returns_perform (powered.program i k) _) 3 0) 2 0
  have verify : Op.Returns (metadataVerify record.sealed) := by
    intro m lost
    cases lost
  apply erase.bind
  intro erased
  apply Op.Returns.ite _ (Op.returns_pure false)
  apply program.bind
  intro programmed
  exact verify.ite (Op.returns_pure false)

theorem returns_restoreBank2 {faults : RestoreFaults} (powered : faults.Powered) :
    Op.Returns (restoreBank2 faults) := by
  have header : Op.Returns (onNor (Qspi.bspQspiRead faults.header backupOffset 4)) :=
    Op.returns_zoom (Qspi.returns_bspQspiRead powered.header backupOffset 4)
  have erase : Op.Returns (eraseBank2 4 faults.erase appSize) :=
    Op.returns_allFrom (fun sector => (Op.returns_pure true).ite (Op.returns_anyFrom
      (fun k => Attempt.returns_perform (powered.erase sector k) _) 4 0)) 8 0
  have copy : Op.Returns (copyToBank2 faults.read faults.program backupOffset appSize) := by
    apply Op.returns_allFrom
    intro k
    apply (Op.returns_zoom (Qspi.returns_bspQspiRead (powered.read k) _ _)).bind
    intro bytes
    cases bytes with
    | none => exact Op.returns_pure false
    | some data =>
        exact Op.returns_anyFrom (fun t => Attempt.returns_perform (powered.program k t) _) 3 0
  apply header.bind
  intro bytes
  cases bytes with
  | none => exact Op.returns_pure false
  | some hdr =>
      apply (Op.returns_pure false).ite
      apply erase.bind
      intro erased
      exact copy.ite (Op.returns_pure false)

theorem returns_bootMetadataStep {faults : BootFaults} (powered : faults.Powered) :
    Op.Returns (bootMetadataStep faults) := by
  have write (record : Metadata) : Op.Returns (onSector1 (metadataWrite faults.record record)) :=
    Op.returns_zoom (returns_metadataWrite powered.record record)
  have reason : Op.Returns resetReasonIsIwdg := by
    intro b lost
    cases lost
  have ready : Op.Returns (ensureQspi faults.init) := by
    apply (Op.returns_gets _).bind
    intro inited
    apply (Op.returns_pure true).ite
    apply (Op.returns_zoom (Qspi.returns_bspQspiInit powered.init)).bind
    intro works
    apply Op.Returns.ite _ (Op.returns_pure false)
    intro b lost
    cases lost
  have rollback : Op.Returns (bootDoRollback faults.init faults.restore) :=
    ready.bind fun ok => (returns_restoreBank2 powered.restore).ite (Op.returns_pure false)
  apply (Op.returns_gets _).bind
  intro record
  apply (Op.returns_pure 0).ite
  apply Op.Returns.ite ((write _).bind fun _ => Op.returns_pure 1)
  apply Op.Returns.ite _ (Op.returns_pure 2)
  apply reason.bind
  intro iwdg
  apply Op.Returns.ite _ (Op.returns_pure 1)
  apply rollback.bind
  intro restored
  exact ((write _).bind fun _ => Op.returns_pure 2).ite (Op.returns_pure 0)

/-- What the user does with a device that does not start: KEY1 held at a reset, key 2, and
a version server that has an update. -/
def rescue (boot : Boot) (qspi : Status) (poll : PollFaults) (menu : MenuFaults) (crc : Word)
    (version : Version) : List Input :=
  [.reset boot true qspi, .poll poll, .menuKey key2 menu, .versionChecked (.update crc version)]

/-- With KEY1 held every reset ends in the menu. -/
theorem Machine.step_resetMenu (s : Machine) {boot : Boot} (powered : boot.faults.Powered)
    {qspi : Status} (on : qspi ≠ .cut) :
    (s.step (.reset boot true qspi)).loc = .input ∧
      (s.step (.reset boot true qspi)).ota = Ota.initial s.ota.buf := by
  have returns : (boot.run s.board).1 ≠ .cut := returns_bootMetadataStep powered _
  have taken : s.step (.reset boot true qspi) =
      (s.restarted (boot.run s.board).2).dispatch (boot.run s.board).1 true qspi := rfl
  rw [taken]
  generalize boot.run s.board = result at returns
  obtain ⟨exit, b⟩ := result
  cases exit with
  | cut => exact absurd rfl returns
  | done request =>
      show ((s.restarted b).enterMenu qspi).loc = .input ∧ ((s.restarted b).enterMenu qspi).ota = _
      unfold enterMenu
      rw [if_neg on]
      split
      · exact ⟨rfl, rfl⟩
      · exact ⟨rfl, rfl⟩

/-- From wherever the device is, the user gets to the question whether to update. -/
theorem Machine.after_rescue (s : Machine) {boot : Boot} (powered : boot.faults.Powered)
    {qspi : Status} (on : qspi ≠ .cut) (poll : PollFaults) (menu : MenuFaults) (crc : Word)
    (version : Version) :
    (Run.after Machine.step s (rescue boot qspi poll menu crc version)).loc = .prompt crc ∧
      (Run.after Machine.step s (rescue boot qspi poll menu crc version)).ethInited = true := by
  obtain ⟨loc, ota⟩ := s.step_resetMenu powered on
  unfold rescue
  rw [Run.after_cons]
  generalize s.step (.reset boot true qspi) = menuState at loc ota
  have idle : menuState.ota.state = .idle := by
    rw [ota]
    rfl
  have polled := Machine.step_quietPoll loc (by rw [idle]; decide) (by rw [idle]; decide) poll
  have free : ({ menuState with loc := .menu } : Machine).busy = false := by
    unfold busy
    rw [idle]
    rfl
  have key : ({ menuState with loc := .menu } : Machine).step (.menuKey key2 menu) =
      { menuState with ethInited := true, loc := .connecting } := by
    show ({ menuState with loc := .menu } : Machine).menuKey key2 menu = _
    unfold menuKey
    rw [if_pos rfl, free]
    rfl
  rw [Run.after_cons, polled, Run.after_cons, key]
  exact ⟨rfl, rfl⟩

/-- No history of the device, with whatever failures and losses of power in it, keeps it
from being repaired: while power stays on in one boot with KEY1 held, however that boot
step fails otherwise, the menu comes up, and an upload that works ends with the image
confirmed and running. -/
theorem never_bricked (board : Board) (buf : Mem) (history : List Input) (boot : Boot)
    (powered : boot.faults.Powered) (qspi : Status) (on : qspi ≠ .cut) (poll : PollFaults)
    (menu : MenuFaults) (version : Version) (u : Upload) (works : u.Works) :
    let final := Run.after Machine.step (.powerOff board buf)
      (history ++ rescue boot qspi poll menu (crc32Calculate u.image) version ++
        (u.reception ++ u.installation ++ u.confirmation))
    final.loc = .app ∧ final.iwdg = false ∧ final.board.bank2.bytes 0 u.image.length = u.image ∧
      final.board.record.state = stateConfirmed := by
  intro final
  let s := Run.after Machine.step (.powerOff board buf) history
  obtain ⟨prompt, eth⟩ := s.after_rescue powered on poll menu (crc32Calculate u.image) version
  have onTrial := works.tried _ prompt eth
  obtain ⟨loc, iwdg, holds⟩ := works.confirmed onTrial.1 onTrial.2.2
  have whole : final = Run.after Machine.step (Run.after Machine.step (Run.after Machine.step s
      (rescue boot qspi poll menu (crc32Calculate u.image) version))
        (u.reception ++ u.installation)) u.confirmation := by
    simp only [final, s, Run.after_append]
  rw [whole]
  exact ⟨loc, iwdg, holds.image, holds.state⟩

theorem BootFaults.clean_powered : BootFaults.clean.Powered where
  init := by decide
  restore := ⟨by decide, fun _ _ _ => nofun, fun _ => nofun, fun _ _ _ => nofun⟩
  record := ⟨fun _ _ => nofun, fun _ _ _ => nofun⟩

/-- On trial with nothing left in Bank 2 and nothing in the backup. -/
def brickedBoard : Board := ⟨fun _ => 0xFF, Metadata.image { Metadata.fresh.sealed with
  state := stateTesting }, fun _ => 0xFF, 0, false⟩

theorem never_bricked_blank :
    let final := Run.after Machine.step (.powerOff brickedBoard fun _ => 0)
      ([.reset ⟨.iwdg, .clean⟩ false .ok] ++ rescue ⟨.powerOn, .clean⟩ .ok .clean ⟨.clean, .clean, .clean⟩
          (crc32Calculate segmentedUpload.image) ⟨0, 2, 0⟩ ++
        (segmentedUpload.reception ++ segmentedUpload.installation ++ segmentedUpload.confirmation))
    final.loc = .app ∧ final.board.record.state = stateConfirmed := by
  have repaired := never_bricked brickedBoard (fun _ => 0)
    [.reset ⟨.iwdg, .clean⟩ false .ok] ⟨.powerOn, .clean⟩ BootFaults.clean_powered .ok (by decide) .clean
    ⟨.clean, .clean, .clean⟩ ⟨0, 2, 0⟩ segmentedUpload segmentedUpload_works
  exact ⟨repaired.1, repaired.2.2.2⟩

end OtaBoot
