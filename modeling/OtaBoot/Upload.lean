import OtaBoot.ImageLength
import OtaBoot.Connections
import OtaBoot.UpdateTrace
import OtaBoot.TrialRun
import OtaBoot.KnownGood
import OtaBoot.SlotMatch
import OtaBoot.FlashGate
import OtaBoot.TriggerRounds

set_option autoImplicit false

/- The whole way of an image: from the client through the receiver, the staging area and
Bank 2 to the App that confirms it. -/
namespace OtaBoot

open Mem

/-- The magic and the length, as the client puts them in front of the image. -/
def packetHeader (image : List Byte) : Mem :=
  wordsImage fun k => if k = 0 then otaMagic else BitVec.ofNat 32 image.length

def packet (image : List Byte) : List Byte := (packetHeader image).bytes 0 8 ++ image

theorem packet_length (image : List Byte) : (packet image).length = 8 + image.length := by
  simp only [packet, bytes, List.length_append, List.length_map, List.length_range]

theorem packet_drop (image : List Byte) : (packet image).drop 8 = image := by
  have header : ((packetHeader image).bytes 0 8).length = 8 := by
    simp only [bytes, List.length_map, List.length_range]
  exact List.drop_left' header

theorem packet_header (image : List Byte) (i : Nat) (inside : i < 8) :
    streamMem (packet image) i = packetHeader image i := by
  have header : ((packetHeader image).bytes 0 8).length = 8 := by
    simp only [bytes, List.length_map, List.length_range]
  unfold packet
  rw [streamMem_front _ _ _ (by omega)]
  unfold streamMem
  rw [List.getD_eq_getElem _ _ (by omega)]
  simp only [bytes, List.getElem_map, List.getElem_range, Nat.zero_add]

theorem packet_word (image : List Byte) (k : Nat) (inside : k < 2) :
    (streamMem (packet image)).word (4 * k) =
      if k = 0 then otaMagic else BitVec.ofNat 32 image.length := by
  have same : (streamMem (packet image)).word (4 * k) = (packetHeader image).word (4 * k) := by
    apply word_congr
    intro i below
    exact packet_header image (4 * k + i) (by omega)
  rw [same]
  exact wordsImage_word _ k

/-- What the client sends for an image that fits is a complete stream. -/
theorem packet_complete {image : List Byte} (some : 0 < image.length)
    (fits : image.length ≤ otaBufSize) : ¬ Incomplete (packet image) := by
  have magic : streamMagic (packet image) = otaMagic := packet_word image 0 (by decide)
  have length : streamLength (packet image) = BitVec.ofNat 32 image.length :=
    packet_word image 1 (by decide)
  have small : image.length < 2 ^ 32 := by
    simp only [otaBufSize] at fits
    omega
  have value : (BitVec.ofNat 32 image.length).toNat = image.length := by
    rw [BitVec.toNat_ofNat, Nat.mod_eq_of_lt small]
  have whole := packet_length image
  unfold Incomplete
  rw [magic, length, value]
  rintro (short | wrong | large | zero | less)
  · omega
  · exact wrong rfl
  · omega
  · rw [zero] at value
    simp at value
    omega
  · omega

/-- One pass of the main loop while the client sends. -/
structure UploadPass where
  chains : List (List Pbuf)
  poll : PollFaults
  key : Nat
  menu : MenuFaults

/-- The menu has no such key. -/
def Ignored (key : Nat) : Prop :=
  key ≠ key2 ∧ key ≠ key3 ∧ key ≠ key4 ∧ key ≠ key5 ∧ key ≠ key6 ∧ key ≠ keyEsc

def UploadPass.inputs (pass : UploadPass) : List Input :=
  pass.chains.map .receive ++ [.poll pass.poll, .menuKey pass.key pass.menu]

namespace Machine

/-- The bytes of one wait for the network go to the receiver, one callback after the other. -/
theorem after_receives (chains : List (List Pbuf)) : ∀ s : Machine, s.listens = true →
    0 < s.ota.connected → Run.after step s (chains.map .receive) =
      { s with ota := chains.foldl Ota.recvData s.ota } := by
  induction chains with
  | nil =>
      intro s _ _
      rfl
  | cons chain rest ih =>
      intro s listens connected
      have first : s.step (.receive chain) = { s with ota := s.ota.recvData chain } :=
        if_pos ⟨listens, connected⟩
      have still : 0 < (s.ota.recvData chain).connected := by
        rw [(Ota.recvData_pcbs chain s.ota).2.1]
        exact connected
      rw [List.map_cons, Run.after_cons, first]
      exact ih { s with ota := s.ota.recvData chain } listens still

theorem step_ignoredKey {s : Machine} (loc : s.loc = .menu) {key : Nat} (ignored : Ignored key)
    (menu : MenuFaults) : s.step (.menuKey key menu) = { s with loc := .input } := by
  obtain ⟨two, three, four, five, six, esc⟩ := ignored
  have taken : s.step (.menuKey key menu) = s.menuKey key menu := if_pos loc
  rw [taken]
  unfold menuKey
  simp only [two, three, four, five, six, esc, ↓reduceIte, false_and]

/-- `OTA_Poll` has nothing to do. -/
theorem step_quietPoll {s : Machine} (loc : s.loc = .input) (verify : s.ota.state ≠ .verify)
    (confirm : s.ota.state ≠ .confirm) (faults : PollFaults) :
    s.step (.poll faults) = { s with loc := .menu } := by
  have unchanged : otaPoll faults s.ota s.board.nor = (.done s.ota.state, s.board.nor) := by
    unfold otaPoll
    rw [if_pos verify]
    rfl
  refine (if_pos loc).trans ?_
  unfold poll
  rw [unchanged]
  simp only [confirm, ↓reduceIte]

/-- A receiver that is neither to be verified nor confirmed is left alone by the rest of
the pass. -/
theorem after_quietPass (s : Machine) (loc : s.loc = .input) (verify : s.ota.state ≠ .verify)
    (confirm : s.ota.state ≠ .confirm) (faults : PollFaults) {key : Nat} (ignored : Ignored key)
    (menu : MenuFaults) : Run.after step s [.poll faults, .menuKey key menu] = s := by
  have polled := step_quietPoll loc verify confirm faults
  have back := step_ignoredKey (s := { s with loc := .menu }) rfl ignored menu
  rw [Run.after_cons, polled, Run.after_cons, back, Run.after_nil, ← loc]

end Machine

theorem Reads.busy {stream : List Byte} {o : Ota} (reads : Reads stream o) :
    o.state ≠ .verify ∧ o.state ≠ .confirm := by
  cases reads with
  | header _ state => simp [state]
  | payload _ _ state => simp [state]
  | rejected state => simp [state]

theorem foldl_recvData_pcbs (chains : List (List Pbuf)) : ∀ o : Ota,
    (chains.foldl Ota.recvData o).clientPcb = o.clientPcb ∧
      (chains.foldl Ota.recvData o).connected = o.connected := by
  induction chains with
  | nil =>
      intro o
      exact ⟨rfl, rfl⟩
  | cons chain rest ih =>
      intro o
      obtain ⟨client, connected, -⟩ := Ota.recvData_pcbs chain o
      rw [List.foldl_cons, (ih _).1, (ih _).2]
      exact ⟨client, connected⟩

/-- Passes of the main loop only pass the bytes on to the receiver. -/
theorem Machine.after_passes (passes : List UploadPass) : ∀ (stream : List Byte) (s : Machine),
    s.loc = .input → s.ethInited = true → 0 < s.ota.connected → Reads stream s.ota →
    (∀ pass ∈ passes, Ignored pass.key) →
    Run.after step s (passes.flatMap UploadPass.inputs) =
      { s with ota := (passes.flatMap UploadPass.chains).foldl Ota.recvData s.ota } := by
  induction passes with
  | nil =>
      intro stream s _ _ _ _ _
      rfl
  | cons pass rest ih =>
      intro stream s loc eth connected reads ignored
      have listens : s.listens = true := by simp [listens, loc, eth]
      have now := session_reads pass.chains stream s.ota reads
      have counted := (foldl_recvData_pcbs pass.chains s.ota).2
      rw [List.flatMap_cons, UploadPass.inputs, Run.after_append, Run.after_append,
        after_receives pass.chains s listens connected]
      rw [after_quietPass { s with ota := pass.chains.foldl Ota.recvData s.ota } loc now.busy.1
        now.busy.2 _ (ignored pass List.mem_cons_self)]
      rw [List.flatMap_cons, List.foldl_append]
      exact ih _ { s with ota := pass.chains.foldl Ota.recvData s.ota } loc eth
        (counted.symm ▸ connected) now fun later found => ignored later (List.mem_cons_of_mem _ found)

/-- An upload: what the client sends during the trigger window, in whole passes of the
main loop and in the last one, the two answers of the user, and what the chips, the
resets and the App do. -/
structure Upload where
  image : List Byte
  window : List (List Pbuf)
  passes : List UploadPass
  last : List (List Pbuf)
  accept : Nat
  answer : Nat
  poll : PollFaults
  write : UpdateFaults
  boot : Boot
  confirm : MetaFaults
  later : Boot
  qspi : Status

namespace Upload

def chains (u : Upload) : List (List Pbuf) :=
  u.window ++ (u.passes.flatMap UploadPass.chains ++ u.last)

/-- From the answer to "Update now?" to the client's close. -/
def reception (u : Upload) : List Input :=
  [.updateKey u.accept .listening, .accept] ++ (u.window.map .receive ++ ([.triggerCheck false] ++
    (u.passes.flatMap UploadPass.inputs ++ (u.last.map .receive ++ [.fin true]))))

/-- From there to the App on trial. -/
def installation (u : Upload) : List Input :=
  [.poll u.poll, .confirmKey u.answer u.write, .reset u.boot false u.qspi]

/-- The App confirms itself; a later reset starts it again. -/
def confirmation (u : Upload) : List Input :=
  [.appConfirm u.confirm, .reset u.later false u.qspi]

end Upload

/-- However the stream is cut, the session is the receiver's alone. -/
theorem Machine.after_reception (u : Upload) (s : Machine) {crc : Word}
    (prompt : s.loc = .prompt crc) (eth : s.ethInited = true) (yes : isYes u.accept = true)
    (ignored : ∀ pass ∈ u.passes, Ignored pass.key) :
    Run.after step s u.reception =
      { s with ota := ({ s.ota with crcExpected := crc } : Ota).session u.chains, loc := .input } := by
  let told : Ota := { s.ota with crcExpected := crc }
  let met : Ota := (told.serverStart .listening).1.acceptCb
  have started : s.step (.updateKey u.accept .listening) =
      { s with ota := (told.serverStart .listening).1, loc := .trigger 0 } := by
    rw [step_promptKey prompt]
    exact if_pos yes
  have accepted : ({ s with ota := (told.serverStart .listening).1, loc := .trigger 0 } : Machine).step
      .accept = { s with ota := met, loc := .trigger 0 } :=
    if_pos ⟨by simp [listens, eth], rfl⟩
  have client : met.clientPcb = true := rfl
  have connected : 0 < met.connected := Nat.succ_pos _
  have reads : Reads [] met := serverStart_reads told
  have window := after_receives u.window { s with ota := met, loc := .trigger 0 }
    (by simp [listens, eth]) connected
  have afterWindow := foldl_recvData_pcbs u.window met
  have looked : ({ s with ota := u.window.foldl Ota.recvData met, loc := .trigger 0 } : Machine).step
      (.triggerCheck false) = { s with ota := u.window.foldl Ota.recvData met, loc := .input } :=
    if_pos (afterWindow.1.trans client)
  have passes := after_passes u.passes _
    { s with ota := u.window.foldl Ota.recvData met, loc := .input } rfl eth
    (afterWindow.2.symm ▸ connected) (session_reads u.window [] met reads) ignored
  have afterPasses := foldl_recvData_pcbs (u.passes.flatMap UploadPass.chains)
    (u.window.foldl Ota.recvData met)
  have stillConnected : 0 < ((u.passes.flatMap UploadPass.chains).foldl Ota.recvData
      (u.window.foldl Ota.recvData met)).connected := by
    rw [afterPasses.2, afterWindow.2]
    exact connected
  have last := after_receives u.last { s with
      ota := (u.passes.flatMap UploadPass.chains).foldl Ota.recvData (u.window.foldl Ota.recvData met)
      loc := .input } (by simp [listens, eth]) stillConnected
  have all : u.chains.foldl Ota.recvData met = u.last.foldl Ota.recvData
      ((u.passes.flatMap UploadPass.chains).foldl Ota.recvData (u.window.foldl Ota.recvData met)) := by
    unfold Upload.chains
    rw [List.foldl_append, List.foldl_append]
  have lastConnected : 0 < (u.chains.foldl Ota.recvData met).connected := by
    rw [all, (foldl_recvData_pcbs u.last _).2]
    exact stillConnected
  have closed : ({ s with ota := u.chains.foldl Ota.recvData met, loc := .input } : Machine).step
      (.fin true) = { s with ota := (u.chains.foldl Ota.recvData met).recvFin true, loc := .input } :=
    if_pos ⟨by simp [listens, eth], lastConnected⟩
  unfold Upload.reception
  rw [Run.after_append, Run.after_cons, started, Run.after_cons, accepted, Run.after_nil,
    Run.after_append, window, Run.after_append, Run.after_cons, looked, Run.after_nil,
    Run.after_append, passes, Run.after_append, last, ← all, Run.after_cons, closed, Run.after_nil]
  rfl

/-- An update within its retry budgets. -/
theorem otaFlashWrite_installs (faults : UpdateFaults) (physical : faults.backup.Physical)
    (update : Update) (fits : update.received ≤ appSize) (returns : faults.Returns0 update.received)
    (b : Board) :
    (otaFlashWrite faults update b).1 = .done true ∧
      Installed update.received b (otaFlashWrite faults update b).2 := by
  have success := (otaFlashWrite_succeeds faults update b).mpr returns
  refine ⟨success, ?_⟩
  have phase := otaFlashWrite_phase faults physical update fits b
  generalize (otaFlashWrite faults update b).1 = exit at phase
  generalize (otaFlashWrite faults update b).2 = t at phase
  cases phase with
  | backupStopped _ _ failed => exact absurd returns.backup failed
  | recordCut backup cut => exact absurd cut returns.recordBackup
  | slotStopped _ _ backup failed => exact absurd returns.slot failed
  | published backup kept slot => exact published_installed faults update.received b _ fits

/-- The record of a new image: what was current is now the backup's. -/
def Metadata.updated (record : Metadata) (update : Update) (state : Word) : Metadata :=
  { record.backedUp.pending update with magic := metadataMagic, state := state }

theorem otaFlashWrite_updates (faults : UpdateFaults) (update : Update) (b : Board)
    (success : (otaFlashWrite faults update b).1 = .done true)
    (recorded : faults.recordBackup.exit = .done true) :
    (otaFlashWrite faults update b).2.record = b.record.updated update statePendingUpdate := by
  rw [otaFlashWrite_record faults update b success,
    faults.recordBackup.stage_of_exit recorded, metadataRead_full]
  rfl

/-- The first boot of a new image starts its trial, if the record can be written. -/
theorem boot_trial (boot : Boot) (b : Board) (pending : b.record.state = statePendingUpdate)
    (written : boot.faults.record.exit = .done true) :
    (boot.run b).1 = .done 1 ∧ (boot.run b).2.bank2 = b.bank2 ∧ (boot.run b).2.nor = b.nor ∧
      (boot.run b).2.record = Metadata.sealed { b.record with state := stateTesting } := by
  have branch := bootBranch_pending b boot.cause pending
  unfold Boot.run
  rw [bootMetadataStep_run]
  simp only [branch]
  rw [pendingStep_run, written, boot.faults.record.stage_of_exit written]
  exact ⟨rfl, rfl, rfl, metadataRead_full _ _⟩

theorem appConfirm_confirms (faults : MetaFaults) (b : Board) (testing : b.record.state = stateTesting)
    (written : faults.exit = .done true) :
    (appConfirm faults b).1 = .done () ∧ (appConfirm faults b).2.bank2 = b.bank2 ∧
      (appConfirm faults b).2.nor = b.nor ∧
      (appConfirm faults b).2.record = b.record.confirmed.sealed := by
  unfold appConfirm
  rw [Op.gets_bind_run, if_pos testing, Op.bind_run, recordWrite_run, written,
    faults.stage_of_exit written]
  exact ⟨rfl, rfl, rfl, metadataRead_full _ _⟩

namespace Upload

/-- What `OTA_Flash_Write` is told about the image. -/
def update (u : Upload) (version : Version) : Update :=
  ⟨u.image.length, crc32Calculate u.image, version.major, version.minor, version.patch⟩

/-- The client sends the image, the user agrees twice, and no operation fails for good. -/
structure Works (u : Upload) : Prop where
  some : 0 < u.image.length
  fits : u.image.length ≤ otaBufSize
  sent : streamOf u.chains = packet u.image
  ignored : ∀ pass ∈ u.passes, Ignored pass.key
  accept : isYes u.accept = true
  answer : isYes u.answer = true
  poll : u.poll.Faultless
  physical : u.write.backup.Physical
  write : u.write.Returns0 u.image.length
  recorded : u.write.recordBackup.exit = .done true
  boot : u.boot.faults.record.exit = .done true
  confirm : u.confirm.exit = .done true

/-- The image is in Bank 2, what was there before in the backup area, and the record says
so. -/
structure Holds (u : Upload) (s : Machine) (state : Word) (b : Board) : Prop where
  image : b.bank2.bytes 0 u.image.length = u.image
  backup : ∀ i < appSize, b.nor (backupOffset + i) = s.board.bank2 i
  record : b.record = s.board.record.updated (u.update s.version) state

theorem Holds.move {u : Upload} {s : Machine} {state next : Word} {b t : Board}
    (holds : u.Holds s state b) (bank2 : t.bank2 = b.bank2) (nor : t.nor = b.nor)
    (record : t.record = Metadata.sealed { b.record with state := next }) : u.Holds s next t := by
  constructor
  · rw [bank2]
    exact holds.image
  · rw [nor]
    exact holds.backup
  · rw [record, holds.record]
    rfl

theorem Holds.state {u : Upload} {s : Machine} {state : Word} {b : Board}
    (holds : u.Holds s state b) : b.record.state = state := by
  rw [holds.record]
  rfl

end Upload

namespace Machine

/-- The staged image is asked about. -/
theorem after_poll {s : Machine} {faults : PollFaults} (works : faults.Faultless)
    (loc : s.loc = .input) (verify : s.ota.state = .verify) (fits : s.ota.received ≤ otaBufSize)
    (crc : crc32Calculate (s.ota.buf.bytes 0 s.ota.received) = s.ota.crcExpected) :
    ∃ nor : Mem, (∀ i < s.ota.received, nor i = s.ota.buf i) ∧
      s.step (.poll faults) = { s with
        board := { s.board with nor := nor }
        ota := { s.ota with state := .confirm }
        loc := .confirm } := by
  obtain ⟨confirms, staged⟩ := otaPoll_faultless works s.ota verify fits s.board.nor
  rw [if_pos crc] at confirms
  refine ⟨(otaPoll faults s.ota s.board.nor).2, staged crc, ?_⟩
  have run : otaPoll faults s.ota s.board.nor =
      (.done .confirm, (otaPoll faults s.ota s.board.nor).2) := Prod.ext confirms rfl
  refine (if_pos loc).trans ?_
  unfold poll
  rw [run]
  rfl

/-- After a write that works the program resets itself. -/
theorem after_confirm {s : Machine} {faults : UpdateFaults} {key : Nat} (loc : s.loc = .confirm)
    (yes : isYes key = true) (success : (otaFlashWrite faults s.update s.board).1 = .done true) :
    (s.step (.confirmKey key faults)).board = (otaFlashWrite faults s.update s.board).2 := by
  have run : otaFlashWrite faults s.update s.board =
      (.done true, (otaFlashWrite faults s.update s.board).2) := Prod.ext success rfl
  have taken : s.step (.confirmKey key faults) = s.confirmKey key faults := if_pos loc
  rw [taken]
  unfold confirmKey
  rw [if_pos yes, run]

/-- A reset that starts the App. -/
theorem after_reset (s : Machine) (boot : Boot) (qspi : Status) {request : Nat}
    (answer : (boot.run s.board).1 = .done request) (jumps : request = 1 ∨ request = 2) :
    (s.step (.reset boot false qspi)).board = (boot.run s.board).2 ∧
      (s.step (.reset boot false qspi)).loc = .app ∧
      (s.step (.reset boot false qspi)).iwdg = decide (request = 1) := by
  have taken : s.step (.reset boot false qspi) = s.main boot false qspi := rfl
  rw [taken]
  unfold main
  rw [answer]
  rcases jumps with rfl | rfl
  · exact ⟨rfl, rfl, rfl⟩
  · exact ⟨rfl, rfl, rfl⟩

end Machine

/-- The receiver holds the image after the client's close. -/
theorem Upload.Works.received {u : Upload} (works : u.Works) (o : Ota) :
    (o.session u.chains).state = .verify ∧ (o.session u.chains).received = u.image.length ∧
      (o.session u.chains).buf.bytes 0 u.image.length = u.image := by
  have reads := session_reads u.chains [] _ (serverStart_reads o)
  rw [List.nil_append, works.sent] at reads
  obtain ⟨verify, -, received, image⟩ := reads_complete reads (packet_complete works.some works.fits)
  have length : (packet u.image).length - 8 = u.image.length := by
    rw [packet_length, Nat.add_sub_cancel_left]
  rw [length] at received
  rw [received, packet_drop] at image
  exact ⟨verify, received, image⟩

theorem Upload.Works.fitsApp {u : Upload} (works : u.Works) : u.image.length ≤ appSize :=
  Nat.le_trans works.fits (by decide)

/-- The image is in Bank 2 and published when the program resets itself. -/
theorem Upload.Works.installed {u : Upload} (works : u.Works) (s : Machine)
    (prompt : s.loc = .prompt (crc32Calculate u.image)) (eth : s.ethInited = true) :
    u.Holds s statePendingUpdate
      (Run.after Machine.step s
        (u.reception ++ [.poll u.poll, .confirmKey u.answer u.write])).board := by
  let told : Ota := { s.ota with crcExpected := crc32Calculate u.image }
  have ended := Machine.after_reception u s prompt eth works.accept works.ignored
  obtain ⟨verify, received, image⟩ := works.received told
  have crc : (told.session u.chains).crcExpected = crc32Calculate u.image :=
    session_crcExpected told u.chains
  obtain ⟨nor, staged, polled⟩ := Machine.after_poll
    (s := { s with ota := told.session u.chains, loc := .input }) works.poll rfl verify
    (received.symm ▸ works.fits) (by rw [received, image, crc])
  let asked : Machine := { s with
    board := { s.board with nor := nor }
    ota := { told.session u.chains with state := .confirm }
    loc := .confirm }
  have update : asked.update = u.update s.version := by
    show Update.mk _ _ _ _ _ = _
    rw [show asked.ota.received = u.image.length from received,
      show asked.ota.crcExpected = crc32Calculate u.image from crc]
    rfl
  have returns : u.write.Returns0 asked.update.received := by
    rw [update]
    exact works.write
  have fits : asked.update.received ≤ appSize := by
    rw [update]
    exact works.fitsApp
  obtain ⟨success, installed⟩ :=
    otaFlashWrite_installs u.write works.physical asked.update fits returns asked.board
  have recorded := otaFlashWrite_updates u.write asked.update asked.board success works.recorded
  have confirmed := Machine.after_confirm (s := asked) rfl works.answer success
  rw [Run.after_append, ended, Run.after_cons, polled, Run.after_cons, Run.after_nil, confirmed]
  constructor
  · refine Eq.trans (bytes_congr fun i inside => ?_) image
    have copied := installed.image i (by rw [update]; exact inside)
    rw [Nat.zero_add, copied]
    exact staged i (by rw [received]; exact inside)
  · exact installed.backup
  · rw [recorded, update]
    rfl

/-- The next reset starts the trial of a published image. -/
theorem Upload.Works.onTrial {u : Upload} (works : u.Works) {s written : Machine}
    (published : u.Holds s statePendingUpdate written.board) :
    (written.step (.reset u.boot false u.qspi)).loc = .app ∧
      (written.step (.reset u.boot false u.qspi)).iwdg = true ∧
      u.Holds s stateTesting (written.step (.reset u.boot false u.qspi)).board := by
  obtain ⟨answer, bank2, nor, record⟩ := boot_trial u.boot written.board published.state works.boot
  obtain ⟨board, loc, iwdg⟩ := written.after_reset u.boot u.qspi answer (.inl rfl)
  refine ⟨loc, iwdg, ?_⟩
  rw [board]
  exact published.move bank2 nor record

/-- Once confirmed, every reset starts the image without the watchdog. -/
theorem Upload.Works.confirmed {u : Upload} (works : u.Works) {s trial : Machine}
    (app : trial.loc = .app) (testing : u.Holds s stateTesting trial.board) :
    (Run.after Machine.step trial u.confirmation).loc = .app ∧
      (Run.after Machine.step trial u.confirmation).iwdg = false ∧
      u.Holds s stateConfirmed (Run.after Machine.step trial u.confirmation).board := by
  obtain ⟨done, bank2, nor, record⟩ :=
    appConfirm_confirms u.confirm trial.board testing.state works.confirm
  have holds := testing.move bank2 nor record
  have run : trial.step (.appConfirm u.confirm) =
      { trial with board := (appConfirm u.confirm trial.board).2, loc := .app } := by
    have ends : appConfirm u.confirm trial.board =
        (.done (), (appConfirm u.confirm trial.board).2) := Prod.ext done rfl
    refine (if_pos app).trans ?_
    unfold Machine.perform
    rw [ends]
  have direct : (appConfirm u.confirm trial.board).2.Direct := by
    unfold Board.Direct
    rw [holds.state]
    decide
  obtain ⟨jumps, same⟩ := boot_direct u.later _ direct
  obtain ⟨board, loc, iwdg⟩ := Machine.after_reset
    { trial with board := (appConfirm u.confirm trial.board).2, loc := .app } u.later u.qspi jumps
    (.inr rfl)
  unfold Upload.confirmation
  rw [Run.after_cons, run, Run.after_cons, Run.after_nil]
  refine ⟨loc, iwdg, ?_⟩
  rw [board]
  constructor
  · rw [same.bank2]
    exact holds.image
  · rw [same.nor]
    exact holds.backup
  · rw [same.record]
    exact holds.record

/-- The whole of the reception and the installation. -/
theorem Upload.Works.tried {u : Upload} (works : u.Works) (s : Machine)
    (prompt : s.loc = .prompt (crc32Calculate u.image)) (eth : s.ethInited = true) :
    (Run.after Machine.step s (u.reception ++ u.installation)).loc = .app ∧
      (Run.after Machine.step s (u.reception ++ u.installation)).iwdg = true ∧
      u.Holds s stateTesting (Run.after Machine.step s (u.reception ++ u.installation)).board := by
  have published := works.installed s prompt eth
  have split : u.reception ++ u.installation =
      (u.reception ++ [.poll u.poll, .confirmKey u.answer u.write]) ++
        [.reset u.boot false u.qspi] := by
    rw [List.append_assoc]
    rfl
  rw [split, Run.after_append]
  exact works.onTrial published

/-- However the client's bytes are cut, an image that fits is installed, started on trial
with the watchdog, and after its confirmation started without; what ran before is in the
backup area, and the record describes both. -/
theorem upload_delivers (u : Upload) (works : u.Works) (s : Machine)
    (prompt : s.loc = .prompt (crc32Calculate u.image)) (eth : s.ethInited = true) :
    let trial := Run.after Machine.step s (u.reception ++ u.installation)
    let final := Run.after Machine.step trial u.confirmation
    (trial.loc = .app ∧ trial.iwdg = true ∧ u.Holds s stateTesting trial.board) ∧
      final.loc = .app ∧ final.iwdg = false ∧ u.Holds s stateConfirmed final.board := by
  intro trial final
  have onTrial := works.tried s prompt eth
  exact ⟨onTrial, works.confirmed onTrial.1 onTrial.2.2⟩

/-- The one-byte image in three segments, the first of which comes before the window is
looked at. -/
def segmentedUpload : Upload where
  image := [0x22]
  window := [[⟨[0x4F], by decide⟩]]
  passes := [⟨[[⟨[0x54, 0x41, 0x00], by decide⟩, ⟨[0x01, 0x00], by decide⟩]], .clean, 0, .clean⟩]
  last := [[⟨[0x00, 0x00, 0x22], by decide⟩]]
  accept := 121
  answer := 89
  poll := .clean
  write := .clean
  boot := ⟨.software, .clean⟩
  confirm := .clean
  later := ⟨.pin, .clean⟩
  qspi := .ok

theorem segmentedUpload_works : segmentedUpload.Works where
  some := by decide
  fits := by decide
  sent := by decide
  ignored := by
    intro pass found
    simp only [segmentedUpload, List.mem_singleton] at found
    rw [found]
    unfold Ignored
    decide
  accept := by decide
  answer := by decide
  poll := PollFaults.clean_faultless
  physical := BackupFaults.clean_physical
  write := ⟨BackupFaults.clean_completes, by decide, UpdateFaults.clean_writesSlot _, by decide⟩
  recorded := by decide
  boot := by decide
  confirm := by decide

theorem segmentedUpload_first {s : Machine} {state : Word} {b : Board}
    (holds : segmentedUpload.Holds s state b) : b.bank2 0 = 0x22 :=
  List.head_eq_of_cons_eq holds.image

/-- The version server has announced the one-byte image to a confirmed device. -/
def offered : Machine :=
  { Machine.powerOff confirmedBoard (fun _ => 0) with
    ethInited := true
    loc := .prompt (crc32Calculate segmentedUpload.image) }

theorem upload_delivers_segmented :
    ∃ final, Run.after Machine.step (Run.after Machine.step offered (segmentedUpload.reception ++
        segmentedUpload.installation)) segmentedUpload.confirmation = final ∧
      final.loc = .app ∧ final.board.bank2 0 = 0x22 ∧ final.board.record.state = stateConfirmed := by
  obtain ⟨-, loc, -, holds⟩ := upload_delivers segmentedUpload segmentedUpload_works offered rfl rfl
  exact ⟨_, rfl, loc, segmentedUpload_first holds, holds.state⟩

end OtaBoot
