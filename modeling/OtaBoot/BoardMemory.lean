import OtaBoot.Board
import OtaBoot.MetadataMemory
import OtaBoot.QspiMemory

set_option autoImplicit false

namespace OtaBoot

open Mem

/-- A board that holds the given record and memories. -/
def Board.holding (record : Metadata) (bank2 nor : Mem) : Board where
  bank2 := bank2
  sector1 := record.sealed.image
  nor := nor
  rsr := 0
  qspiInited := false

theorem Board.holding_record (record : Metadata) (bank2 nor : Mem) :
    (Board.holding record bank2 nor).record = record.sealed := by
  have read : Metadata.ofBytes (Board.holding record bank2 nor).sector1 = record.sealed :=
    Metadata.ofBytes_image record.sealed
  simp only [Board.record, metadataRead, read, Metadata.sealed, ne_eq, not_true_eq_false,
    ↓reduceIte]

theorem recordWrite_run (faults : MetaFaults) (record : Metadata) (b : Board) :
    onSector1 (metadataWrite faults record) b =
      (faults.exit, { b with sector1 := faults.stage.memory record b.sector1 }) := by
  unfold onSector1 Op.zoom
  rw [metadataWrite_run]

section Keeps

variable {γ : Type} {f : Board → γ}

theorem keeps_onNor {α : Type} (apart : ∀ b m, f { b with nor := m } = f b) (c : Op Mem α) :
    Op.Keeps f (onNor c) := Op.keeps_zoom apart

theorem keeps_onSector1 {α : Type} (apart : ∀ b m, f { b with sector1 := m } = f b)
    (c : Op Mem α) : Op.Keeps f (onSector1 c) := Op.keeps_zoom apart

theorem keeps_eraseBank2 (apart : ∀ b m, f { b with bank2 := m } = f b) (budget : Nat)
    (tries : Nat → Nat → Attempt) (limit : Nat) : Op.Keeps f (eraseBank2 budget tries limit) := by
  apply Op.keeps_allFrom
  intro sector
  apply Op.Keeps.ite (Op.keeps_pure true)
  apply Op.keeps_anyFrom
  intro k
  apply Attempt.keeps_perform
  intro b
  exact apart b _

theorem keeps_copyToBank2 (nor : ∀ b m, f { b with nor := m } = f b)
    (bank2 : ∀ b m, f { b with bank2 := m } = f b) (reads : Nat → Status)
    (programs : Nat → Nat → Attempt) (source size : Nat) :
    Op.Keeps f (copyToBank2 reads programs source size) := by
  apply Op.keeps_allFrom
  intro k
  apply (keeps_onNor nor _).bind
  intro data
  cases data with
  | none => exact Op.keeps_pure false
  | some bytes =>
      apply Op.keeps_anyFrom
      intro t
      apply Attempt.keeps_perform
      intro b
      exact bank2 b _

end Keeps

/-- Only Bank 2 below `limit` may differ. -/
structure OnlyBank2 (b t : Board) (limit : Nat) : Prop where
  same : t = { b with bank2 := t.bank2 }
  frame : Framed b.bank2 t.bank2 0 limit

theorem OnlyBank2.refl (b : Board) (limit : Nat) : OnlyBank2 b b limit :=
  ⟨rfl, Framed.refl _ _ _⟩

theorem OnlyBank2.trans {b t u : Board} {limit : Nat} (first : OnlyBank2 b t limit)
    (second : OnlyBank2 t u limit) : OnlyBank2 b u limit := by
  refine ⟨?_, first.frame.trans second.frame⟩
  rw [second.same, first.same]

theorem OnlyBank2.nor {b t : Board} {limit : Nat} (only : OnlyBank2 b t limit) :
    t.nor = b.nor := by
  rw [only.same]

theorem OnlyBank2.sector1 {b t : Board} {limit : Nat} (only : OnlyBank2 b t limit) :
    t.sector1 = b.sector1 := by
  rw [only.same]

/-- The bytes of the sectors that start below `limit`. -/
def sectorSpan (limit : Nat) : Nat := min 8 ((limit + sectorSize - 1) / sectorSize) * sectorSize

theorem sectorSpan_appSize : sectorSpan appSize = appSize := by
  simp only [sectorSpan, sectorSize, appSize]
  omega

theorem le_sectorSpan (limit : Nat) (bound : limit ≤ appSize) : limit ≤ sectorSpan limit := by
  simp only [sectorSpan, sectorSize, appSize] at bound ⊢
  omega

theorem sectorSpan_le (limit : Nat) : sectorSpan limit ≤ appSize := by
  simp only [sectorSpan, sectorSize, appSize]
  omega

theorem eraseSector_eq (sector : Nat) (b : Board) :
    b.eraseSector sector =
      { b with bank2 := b.bank2.erase (sector * sectorSize) sectorSize } := rfl

theorem programWord_eq (offset : Nat) (data : Nat → Byte) (b : Board) :
    b.programWord offset data = { b with bank2 := b.bank2.program offset flashWord data } := rfl

-- Rewriting with the two equations keeps the kernel from comparing the updated
-- memories by unfolding the sector size.
theorem eraseSector_idempotent (sector : Nat) (b : Board) :
    (b.eraseSector sector).eraseSector sector = b.eraseSector sector := by
  rw [eraseSector_eq sector (b.eraseSector sector), eraseSector_eq sector b, erase_idempotent]

theorem programWord_idempotent (offset : Nat) (data : Nat → Byte) (b : Board) :
    (b.programWord offset data).programWord offset data = b.programWord offset data := by
  rw [programWord_eq offset data (b.programWord offset data), programWord_eq offset data b,
    program_idempotent]

theorem eraseSector_onlyBank2 (sector limit : Nat) (b : Board)
    (inside : sector * sectorSize + sectorSize ≤ limit) :
    OnlyBank2 b (b.eraseSector sector) limit :=
  ⟨rfl, (erase_framed b.bank2 _ _).widen (Nat.zero_le _) inside⟩

/-- One pass of the sector loop: the erased part of Bank 2 grows by a sector, or all of it
that is needed is erased already. -/
theorem erasePass_ensures (budget : Nat) (tries : Nat → Attempt) (limit : Nat) {k : Nat}
    (below : k < 8) {b t : Board} (only : OnlyBank2 b t (sectorSpan limit))
    (done : t.bank2 = b.bank2.erase 0 (min (k * sectorSize) (sectorSpan limit))) :
    Op.Ensures (if k * sectorSize ≥ limit then pure true
        else Op.anyFrom (fun attempt => (tries attempt).perform (Board.eraseSector k)) budget 0) t
      (fun ok u => if ok then OnlyBank2 b u (sectorSpan limit) ∧
          u.bank2 = b.bank2.erase 0 (min ((k + 1) * sectorSize) (sectorSpan limit))
        else OnlyBank2 b u (sectorSpan limit))
      (fun u => OnlyBank2 b u (sectorSpan limit)) := by
  split
  · rename_i past
    have reached : min (k * sectorSize) (sectorSpan limit) =
        min ((k + 1) * sectorSize) (sectorSpan limit) := by
      simp only [sectorSpan, sectorSize] at past ⊢
      omega
    exact ⟨only, by rw [done, reached]⟩
  · rename_i needed
    have inside : k * sectorSize + sectorSize ≤ sectorSpan limit := by
      simp only [sectorSpan, sectorSize] at needed ⊢
      omega
    have erased := only.trans (eraseSector_onlyBank2 k (sectorSpan limit) t inside)
    have before : min (k * sectorSize) (sectorSpan limit) = 0 + k * sectorSize := by omega
    have next : (k + 1) * sectorSize = k * sectorSize + sectorSize := Nat.succ_mul k sectorSize
    have after : min ((k + 1) * sectorSize) (sectorSpan limit) = k * sectorSize + sectorSize := by
      rw [next]
      exact Nat.min_eq_left inside
    have either : OnlyBank2 b (if Attempt.takes tries budget 0 then t.eraseSector k else t)
        (sectorSpan limit) := by
      split
      · exact erased
      · exact only
    apply Attempt.anyFrom_perform_ensures (eraseSector_idempotent k)
    · intro _
      refine ⟨erased, ?_⟩
      show t.bank2.erase (k * sectorSize) sectorSize = _
      rw [done, before, after, Nat.zero_add]
      have joined := erase_append b.bank2 0 (k * sectorSize) sectorSize
      rw [Nat.zero_add] at joined
      exact joined
    · intro _
      exact either
    · intro _
      exact either

/-- The sector loop erases exactly the sectors that start below `limit`, or stops
having touched nothing else. -/
theorem eraseBank2_ensures (budget : Nat) (tries : Nat → Nat → Attempt) (limit : Nat) (b : Board) :
    Op.Ensures (eraseBank2 budget tries limit) b
      (fun ok t => OnlyBank2 b t (sectorSpan limit) ∧
        (ok = true → t.bank2 = b.bank2.erase 0 (sectorSpan limit)))
      (fun t => OnlyBank2 b t (sectorSpan limit)) := by
  have start : b.bank2 = b.bank2.erase 0 (min (0 * sectorSize) (sectorSpan limit)) := by
    funext i
    exact (erase_outside _ _ _ _ (by omega)).symm
  have loop := Op.allFrom_ensures _
    (fun k t => OnlyBank2 b t (sectorSpan limit) ∧
      t.bank2 = b.bank2.erase 0 (min (k * sectorSize) (sectorSpan limit)))
    (fun t => OnlyBank2 b t (sectorSpan limit)) (fun t => OnlyBank2 b t (sectorSpan limit)) 8 0 b
    ⟨OnlyBank2.refl b _, start⟩
    fun k _ _ below reached =>
      erasePass_ensures budget (tries k) limit (by omega) reached.1 reached.2
  refine loop.mono ?_ fun _ kept => kept
  intro ok t result
  cases ok with
  | false => exact ⟨result, by simp⟩
  | true =>
      have whole : min ((0 + 8) * sectorSize) (sectorSpan limit) = sectorSpan limit := by
        have := sectorSpan_le limit
        simp only [sectorSize, appSize] at this ⊢
        omega
      simp only [↓reduceIte, whole] at result
      exact ⟨result.1, fun _ => result.2⟩

/-- Every sector that starts below `limit` is erased within its budget of tries. -/
def EraseCompletes (budget : Nat) (tries : Nat → Nat → Attempt) (limit : Nat) : Prop :=
  ∀ sector < 8, sector * sectorSize < limit →
    Attempt.verdict (tries sector) budget 0 = .done true

theorem eraseBank2_succeeds (budget : Nat) (tries : Nat → Nat → Attempt) (limit : Nat) :
    Op.Succeeds (eraseBank2 budget tries limit) (EraseCompletes budget tries limit) := by
  have pass : ∀ sector, Op.Succeeds (if sector * sectorSize ≥ limit then pure true
      else Op.anyFrom (fun k => (tries sector k).perform (Board.eraseSector sector)) budget 0)
      (sector * sectorSize < limit → Attempt.verdict (tries sector) budget 0 = .done true) := by
    intro sector b
    by_cases past : sector * sectorSize ≥ limit
    · have skipped : ¬ sector * sectorSize < limit := by omega
      simp only [past, ↓reduceIte, Op.pure_run, skipped, false_implies]
    · have needed : sector * sectorSize < limit := by omega
      simp only [past, ↓reduceIte, needed, true_implies]
      exact Attempt.succeeds_anyFrom _ _ _ _ b
  have loop := Op.succeeds_allFrom pass 8 0
  simp only [Nat.zero_add] at loop
  exact loop

/-- If no try at the first sector takes effect, the sector loop stops there. -/
theorem eraseBank2_idle (budget : Nat) (tries : Nat → Nat → Attempt) (limit : Nat)
    (positive : 0 < limit) (b : Board) (idle : Attempt.takes (tries 0) budget 0 = false) :
    ∃ exit, exit ≠ .done true ∧ eraseBank2 budget tries limit b = (exit, b) := by
  have refused : Attempt.verdict (tries 0) budget 0 ≠ .done true := by
    intro success
    rw [Attempt.takes_of_verdict _ _ _ success] at idle
    exact absurd idle (by decide)
  have sector : Op.anyFrom (fun k => (tries 0 k).perform (Board.eraseSector 0)) budget 0 b =
      (Attempt.verdict (tries 0) budget 0, b) := by
    rw [Attempt.anyFrom_perform _ _ (eraseSector_idempotent 0), idle]
    rfl
  have needed : ¬ 0 * sectorSize ≥ limit := by omega
  unfold eraseBank2
  rw [Op.allFrom]
  simp only [needed, ↓reduceIte]
  generalize Attempt.verdict (tries 0) budget 0 = ending at refused sector
  cases ending with
  | cut => exact ⟨.cut, by simp, Op.bind_run_cut _ _ _ _ sector⟩
  | done ok =>
      cases ok with
      | true => exact absurd rfl refused
      | false => exact ⟨.done false, by simp, Op.bind_run_done _ _ _ _ _ sector⟩

/-- Reading the NOR changes nothing; it fails or returns the stored bytes. -/
theorem readNor_ensures {status : Status} {address size : Nat} {b : Board}
    {Q : Option (List Byte) → Board → Prop} {C : Board → Prop}
    (success : status = .ok → Q (some (b.nor.bytes address size)) b)
    (failure : status = .error → Q none b) (lost : status = .cut → C b) :
    Op.Ensures (onNor (Qspi.bspQspiRead status address size)) b Q C := by
  unfold onNor
  rw [Op.ensures_zoom]
  cases status with
  | ok => exact success rfl
  | error => exact failure rfl
  | cut => exact lost rfl

theorem wordBuffer_bytes (m : Mem) (address size i : Nat) :
    wordBuffer (m.bytes address size) i = if i < size then m (address + i) else 0xFF := by
  unfold wordBuffer bytes
  rw [List.getD_eq_getElem?_getD, List.getElem?_map]
  by_cases inside : i < size
  · simp only [List.getElem?_range inside, Option.map_some, Option.getD_some, inside, ↓reduceIte]
  · rw [List.getElem?_eq_none (by simp only [List.length_range]; omega)]
    simp only [Option.map_none, Option.getD_none, inside, ↓reduceIte]

/-- Bank 2 once the first `size` bytes hold the NOR bytes from `source`. -/
def copied (b : Board) (source size : Nat) : Mem :=
  b.bank2.store 0 size fun i => b.nor (source + i)

theorem copied_inside (b : Board) (source size i : Nat) (inside : i < size) :
    copied b source size i = b.nor (source + i) :=
  store_inside _ _ _ _ _ (Nat.zero_le _) (by omega)

theorem copied_outside (b : Board) (source size i : Nat) (outside : size ≤ i) :
    copied b source size i = b.bank2 i :=
  store_outside _ _ _ _ _ (by omega)

/-- Programming word `k` extends the copied prefix; the padding of a short last
word leaves erased bytes erased. -/
theorem copied_programWord (b : Board) (source size limit k : Nat)
    (blank : Erased b.bank2 0 limit) (inside : k * flashWord + flashWord ≤ limit)
    (needed : k * flashWord < size) :
    (copied b source (min size (k * flashWord))).program (k * flashWord) flashWord
        (wordBuffer (b.nor.bytes (source + k * flashWord)
          (if size - k * flashWord ≥ flashWord then flashWord else size - k * flashWord))) =
      copied b source (min size ((k + 1) * flashWord)) := by
  simp only [flashWord] at inside needed ⊢
  funext i
  by_cases here : k * 32 ≤ i ∧ i < k * 32 + 32
  · have erased : copied b source (min size (k * 32)) i = 0xFF := by
      rw [copied_outside _ _ _ _ (by omega)]
      exact blank i (Nat.zero_le _) (by omega)
    rw [program_blank _ _ _ _ _ here.1 here.2 erased, wordBuffer_bytes]
    by_cases stored : i < size
    · have column : i - k * 32 < if size - k * 32 ≥ 32 then 32 else size - k * 32 := by
        split <;> omega
      rw [copied_inside _ _ _ _ (by omega)]
      simp only [column, ↓reduceIte]
      congr 1
      omega
    · have column : ¬ i - k * 32 < if size - k * 32 ≥ 32 then 32 else size - k * 32 := by
        split <;> omega
      rw [copied_outside _ _ _ _ (by omega)]
      simp only [column, ↓reduceIte]
      exact (blank i (Nat.zero_le _) (by omega)).symm
  · rw [program_outside _ _ _ _ _ (by omega)]
    by_cases before : i < min size (k * 32)
    · rw [copied_inside _ _ _ _ before, copied_inside _ _ _ _ (by omega)]
    · rw [copied_outside _ _ _ _ (by omega), copied_outside _ _ _ _ (by omega)]

/-- Every read succeeds and every flash word is programmed within three tries. -/
def CopyCompletes (reads : Nat → Status) (programs : Nat → Nat → Attempt) (size : Nat) : Prop :=
  ∀ k < (size + flashWord - 1) / flashWord,
    reads k = .ok ∧ Attempt.verdict (programs k) 3 0 = .done true

theorem copyToBank2_succeeds (reads : Nat → Status) (programs : Nat → Nat → Attempt)
    (source size : Nat) :
    Op.Succeeds (copyToBank2 reads programs source size) (CopyCompletes reads programs size) := by
  have pass : ∀ k, Op.Succeeds (copyPass reads programs source size k)
      (reads k = .ok ∧ Attempt.verdict (programs k) 3 0 = .done true) := by
    intro k b
    unfold copyPass
    rw [Op.bind_run]
    unfold onNor Op.zoom Qspi.bspQspiRead
    generalize reads k = status
    cases status with
    | ok =>
        simp only [true_and]
        exact Attempt.succeeds_anyFrom _ _ _ _ b
    | error => simp [Op.pure_run]
    | cut => simp
  have loop := Op.succeeds_allFrom pass ((size + flashWord - 1) / flashWord) 0
  simp only [Nat.zero_add] at loop
  exact loop

/-- A copied prefix that lies below `limit` changes nothing above it. -/
theorem copied_onlyBank2 (b : Board) (source : Nat) {size limit : Nat} (fits : size ≤ limit) :
    OnlyBank2 b { b with bank2 := copied b source size } limit := by
  have frame : Framed b.bank2 (copied b source size) 0 limit :=
    (store_framed b.bank2 0 size _).widen (Nat.le_refl _) (by omega)
  exact ⟨rfl, frame⟩

/-- One pass of the copy loop: the copied prefix grows by a flash word. -/
theorem copyPass_ensures (reads : Nat → Status) (programs : Nat → Nat → Attempt)
    {source size limit k : Nat} {b : Board} (blank : Erased b.bank2 0 limit)
    (aligned : limit % flashWord = 0) (fits : size ≤ limit) (needed : k * flashWord < size) :
    Op.Ensures (copyPass reads programs source size k)
      { b with bank2 := copied b source (min size (k * flashWord)) }
      (fun ok t => if ok then
          t = { b with bank2 := copied b source (min size ((k + 1) * flashWord)) }
        else OnlyBank2 b t limit)
      (fun t => OnlyBank2 b t limit) := by
  have inside : k * flashWord + flashWord ≤ limit := by
    simp only [flashWord] at needed aligned ⊢
    omega
  have before : OnlyBank2 b { b with bank2 := copied b source (min size (k * flashWord)) } limit :=
    copied_onlyBank2 b source (by omega)
  have after : OnlyBank2 b { b with bank2 := copied b source (min size ((k + 1) * flashWord)) }
      limit := copied_onlyBank2 b source (by omega)
  refine Op.Ensures.bind (fun data t => t = { b with
      bank2 := copied b source (min size (k * flashWord)) } ∧
      ∀ bytes, data = some bytes → bytes = b.nor.bytes (source + k * flashWord)
        (if size - k * flashWord ≥ flashWord then flashWord else size - k * flashWord))
    (readNor_ensures (fun _ => ⟨rfl, fun _ found => (Option.some.inj found).symm⟩)
      (fun _ => ⟨rfl, by simp⟩) fun _ => before) ?_
  rintro data t ⟨rfl, found⟩
  cases data with
  | none => exact before
  | some bytes =>
      have programmed : Board.programWord (k * flashWord) (wordBuffer bytes)
          { b with bank2 := copied b source (min size (k * flashWord)) } =
          { b with bank2 := copied b source (min size ((k + 1) * flashWord)) } := by
        rw [programWord_eq, found bytes rfl,
          copied_programWord b source size limit k blank inside needed]
      have either : OnlyBank2 b (if Attempt.takes (programs k) 3 0 then
          Board.programWord (k * flashWord) (wordBuffer bytes)
            { b with bank2 := copied b source (min size (k * flashWord)) }
          else { b with bank2 := copied b source (min size (k * flashWord)) }) limit := by
        rw [programmed]
        split
        · exact after
        · exact before
      apply Attempt.anyFrom_perform_ensures (programWord_idempotent _ _)
      · intro _
        exact programmed
      · intro _
        exact either
      · intro _
        exact either

/-- The copy loop over an erased range stores exactly the source bytes, or stops
having touched nothing outside it. -/
theorem copyToBank2_ensures (reads : Nat → Status) (programs : Nat → Nat → Attempt)
    (source size limit : Nat) (b : Board) (blank : Erased b.bank2 0 limit)
    (aligned : limit % flashWord = 0) (fits : size ≤ limit) :
    Op.Ensures (copyToBank2 reads programs source size) b
      (fun ok t => OnlyBank2 b t limit ∧ (ok = true → t.bank2 = copied b source size))
      (fun t => OnlyBank2 b t limit) := by
  have start : copied b source (min size (0 * flashWord)) = b.bank2 := by
    funext i
    exact copied_outside _ _ _ _ (by omega)
  have loop := Op.allFrom_ensures (copyPass reads programs source size)
    (fun k t => t = { b with bank2 := copied b source (min size (k * flashWord)) })
    (fun t => OnlyBank2 b t limit) (fun t => OnlyBank2 b t limit)
    ((size + flashWord - 1) / flashWord) 0 b (by rw [start]) (by
      rintro k t - below rfl
      have needed : k * flashWord < size := by
        simp only [flashWord] at below ⊢
        omega
      exact copyPass_ensures reads programs blank aligned fits needed)
  refine loop.mono ?_ fun _ kept => kept
  intro ok t result
  cases ok with
  | false => exact ⟨result, by simp⟩
  | true =>
      have whole : min size ((0 + (size + flashWord - 1) / flashWord) * flashWord) = size := by
        simp only [flashWord]
        omega
      simp only [↓reduceIte, whole] at result
      subst result
      exact ⟨copied_onlyBank2 b source fits, fun _ => rfl⟩

end OtaBoot
