import OtaBoot.Ota

set_option autoImplicit false

/- `main` and `interactive_mode` as one machine. Everything between two waits for the
outside (the network, a key, the version server, a reset) is one step. -/
namespace OtaBoot

/-- Where the program waits. `input` is the network part of the main loop, `confirm`
the blocking read of the answer, `menu` the key read at the end of the loop; the next
five are inside `Firmware_Update`. -/
inductive Loc
  | input
  | confirm
  | menu
  | connecting
  | prompt (crc : Word)
  | upToDate
  | noServer
  | trigger (round : Nat)
  | app
  | off
  deriving DecidableEq

/-- The version numbers of the last response of the version server. -/
structure Version where
  major : Word
  minor : Word
  patch : Word

/-- `iwdg` is true if `Iwdg_Enable` has been called since the last reset. -/
structure Machine where
  board : Board
  ota : Ota
  version : Version
  ethInited : Bool
  iwdg : Bool
  loc : Loc

/-- The outcome of the version check. -/
inductive VersionResult
  | update (crc : Word) (version : Version)
  | none
  | unreachable

/-- Faults of the menu operations. -/
structure MenuFaults where
  backup : ManualBackupFaults
  restore : RestoreFaults
  record : MetaFaults

/-- What the outside does next. A key 0 is no key. -/
inductive Input
  | reset (boot : Boot) (key1 : Bool) (qspi : Status)
  | accept
  | receive (chain : List Pbuf)
  | fin (closed : Bool)
  | err (closing : Bool)
  | poll (faults : PollFaults)
  | confirmKey (key : Nat) (faults : UpdateFaults)
  | menuKey (key : Nat) (faults : MenuFaults)
  | versionChecked (result : VersionResult)
  | updateKey (key : Nat) (result : StartResult)
  | triggerCheck (elapsed : Bool)
  | appConfirm (faults : MetaFaults)

abbrev keyEsc : Nat := 27
abbrev key1 : Nat := 49
abbrev key2 : Nat := 50
abbrev key3 : Nat := 51
abbrev key4 : Nat := 52
abbrev key5 : Nat := 53
abbrev key6 : Nat := 54

def isYes (key : Nat) : Bool := key == 121 || key == 89
def isNo (key : Nat) : Bool := key == 110 || key == 78 || key == keyEsc

namespace Machine

/-- The callbacks run where the program processes network input. -/
def listens (s : Machine) : Bool :=
  s.ethInited &&
    match s.loc with
    | .input | .connecting | .prompt _ | .upToDate | .noServer | .trigger _ => true
    | _ => false

/-- What `OTA_Flash_Write` reads. -/
def update (s : Machine) : Update where
  received := s.ota.received
  crcExpected := s.ota.crcExpected
  major := s.version.major
  minor := s.version.minor
  patch := s.version.patch

/-- A board operation without a result; power may be lost in it. -/
def perform {α : Type} (s : Machine) (op : Op Board α) (next : Loc) : Machine :=
  match op s.board with
  | (.done _, b) => { s with board := b, loc := next }
  | (.cut, b) => { s with board := b, loc := .off }

/-- `interactive_mode` up to its loop: the result of the QSPI start is not looked at. -/
def enterMenu (s : Machine) (qspi : Status) : Machine :=
  if s.board.qspiInited then { s with loc := .input }
  else if qspi = .cut then { s with loc := .off }
  else { s with board := { s.board with qspiInited := true }, loc := .input }

/-- The variables after a reset. -/
def restarted (s : Machine) (board : Board) : Machine where
  board := board
  ota := Ota.initial s.ota.buf
  version := ⟨0, 0, 0⟩
  ethInited := false
  iwdg := false
  loc := .off

/-- What `main` does with the answer of `Boot_Metadata_Step`. -/
def dispatch (s : Machine) (answer : Exit Nat) (key1 : Bool) (qspi : Status) : Machine :=
  match answer with
  | .cut => s
  | .done request =>
    if key1 then s.enterMenu qspi
    else if request = 0 then s.enterMenu qspi
    else if request = 1 then { s with iwdg := true, loc := .app }
    else { s with loc := .app }

/-- A reset and `main`. -/
def main (s : Machine) (boot : Boot) (key1 : Bool) (qspi : Status) : Machine :=
  (s.restarted (boot.run s.board).2).dispatch (boot.run s.board).1 key1 qspi

/-- `OTA_Poll` and the test that follows it. -/
def poll (s : Machine) (faults : PollFaults) : Machine :=
  match otaPoll faults s.ota s.board.nor with
  | (.cut, nor) => { s with board := { s.board with nor := nor }, loc := .off }
  | (.done state, nor) =>
    { s with
      board := { s.board with nor := nor }
      ota := { s.ota with state := state }
      loc := if state = .confirm then .confirm else .menu }

/-- Back to the menu after a write that failed or was refused. -/
def endSession (s : Machine) (next : Loc) : Machine :=
  { s with ota := s.ota.serverStop.resetState, loc := next }

/-- The answer to the prompt. After a write that works the program resets itself. -/
def confirmKey (s : Machine) (key : Nat) (faults : UpdateFaults) : Machine :=
  if isYes key then
    match otaFlashWrite faults s.update s.board with
    | (.cut, b) => { s with board := b, loc := .off }
    | (.done true, b) =>
      { s with board := b, ota := { s.ota with state := .done }, loc := .off }
    | (.done false, b) => { s with board := b }.endSession .menu
  else if isNo key then s.endSession .menu
  else { s with loc := .menu }

def busy (s : Machine) : Bool := s.ota.state == .receiving || s.ota.state == .confirm

/-- `Menu_HandleKey`. -/
def menuKey (s : Machine) (key : Nat) (faults : MenuFaults) : Machine :=
  if key = key2 then
    if s.busy then { s with loc := .input }
    else { s with ethInited := true, loc := .connecting }
  else if key = key3 then s.perform (backupSlotA faults.backup) .input
  else if key = key4 then s.perform (restoreSlotA faults.restore faults.record) .input
  else if key = key6 then { s with loc := .off }
  else if key = key5 then { s with loc := .app }
  else if key = keyEsc ∧ s.busy then { s with ota := s.ota.serverStop, loc := .input }
  else { s with loc := .input }

def versionChecked (s : Machine) (result : VersionResult) : Machine :=
  match result with
  | .update crc version => { s with version := version, loc := .prompt crc }
  | .none => { s with loc := .upToDate }
  | .unreachable => { s with loc := .noServer }

/-- The answer to "Update now?". -/
def promptKey (s : Machine) (crc : Word) (key : Nat) (result : StartResult) : Machine :=
  if isYes key then
    match { s.ota with crcExpected := crc }.serverStart result with
    | (o, true) => { s with ota := o, loc := .trigger 0 }
    | (o, false) => { s with ota := o }.endSession .input
  else if isNo key then { s with loc := .input }
  else s

/-- The keys inside `Firmware_Update`. -/
def updateKey (s : Machine) (key : Nat) (result : StartResult) : Machine :=
  match s.loc with
  | .prompt crc => s.promptKey crc key result
  | .upToDate => if key = keyEsc then { s with loc := .input } else s
  | .noServer =>
    if key = OtaBoot.key1 then { s with loc := .input }
    else if key = key2 then { s with loc := .connecting }
    else s
  | _ => s

/-- A pass of the wait for the client; three rounds without one end the update. -/
def triggerCheck (s : Machine) (round : Nat) (elapsed : Bool) : Machine :=
  if s.ota.clientPcb then { s with loc := .input }
  else if elapsed then
    if round + 1 < 3 then { s with loc := .trigger (round + 1) } else s.endSession .input
  else s

def onOta (s : Machine) (f : Ota → Ota) : Machine := { s with ota := f s.ota }

/-- An input that the program does not wait for changes nothing. -/
def step (s : Machine) (input : Input) : Machine :=
  match input with
  | .reset boot key1 qspi => s.main boot key1 qspi
  | .accept => if s.listens ∧ s.ota.serverPcb then s.onOta Ota.acceptCb else s
  | .receive chain =>
    if s.listens ∧ 0 < s.ota.connected then s.onOta fun o => o.recvData chain else s
  | .fin closed => if s.listens ∧ 0 < s.ota.connected then s.onOta (Ota.recvFin closed) else s
  | .err closing =>
    if s.listens ∧ 0 < (if closing then s.ota.closing else s.ota.connected) then
      s.onOta (Ota.fail closing)
    else s
  | .poll faults => if s.loc = .input then s.poll faults else s
  | .confirmKey key faults => if s.loc = .confirm then s.confirmKey key faults else s
  | .menuKey key faults => if s.loc = .menu then s.menuKey key faults else s
  | .versionChecked result => if s.loc = .connecting then s.versionChecked result else s
  | .updateKey key result => s.updateKey key result
  | .triggerCheck elapsed =>
    match s.loc with
    | .trigger round => s.triggerCheck round elapsed
    | _ => s
  | .appConfirm faults => if s.loc = .app then s.perform (OtaBoot.appConfirm faults) .app else s

end Machine

end OtaBoot
