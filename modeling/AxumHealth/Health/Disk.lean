import AxumHealth.Health.Component
import AxumHealth.Machine.Saturating

/-!
# Disk checks

`src/health/disk.rs`.  The arithmetic of `disk_usage_percent_remaining` after the
system call is `usageOfStatvfs`.  Its results are stated about the remaining
percentage as a natural number, `quotient`, before the cast to `u8`.
-/

namespace AxumHealth

open Concurrency Machine

namespace Disk

structure DiskCheck where
  path : String
  status : Status
  totalBytes : Option UInt64
  availableBytes : Option UInt64
  percentRemaining : Option UInt8
  threshold : UInt8
  error : Option String
  deriving DecidableEq, Repr

def DiskCheck.toValue (check : DiskCheck) : Json.Value :=
  .object ([("path", .string check.path), ("status", check.status.toValue)] ++
    Json.optionalField "total_bytes" (fun n => .number n.toNat) check.totalBytes ++
    Json.optionalField "available_bytes" (fun n => .number n.toNat) check.availableBytes ++
    Json.optionalField "percent_remaining" (fun n => .number n.toNat) check.percentRemaining ++
    [("threshold", .number check.threshold.toNat)] ++
    Json.optionalField "error" .string check.error)

/-- `DiskDetails` -/
def diskDetails (disks : List DiskCheck) : Json.Value :=
  .object [("disks", .array (disks.map DiskCheck.toValue))]

def blockSize (stat : Statvfs) : UInt64 :=
  if stat.fFrsize ≠ 0 then stat.fFrsize else stat.fBsize

/-- Total bytes, available bytes and the percentage that remains. -/
def usageOfStatvfs (stat : Statvfs) : Except String (UInt64 × UInt64 × UInt8) :=
  let totalBytes := stat.fBlocks.saturatingMul (blockSize stat)
  let availableBytes := stat.fBavail.saturatingMul (blockSize stat)
  if totalBytes = 0 then .error "filesystem reports zero total bytes"
  else
    let percentRemaining := (availableBytes.saturatingMul 100 / totalBytes).toUInt8
    .ok (totalBytes, availableBytes, percentRemaining)

/-- `CString::new` refuses a path with a nul byte. -/
def hasNul (path : String) : Bool := path.toList.contains (Char.ofNat 0)

def diskUsagePercentRemaining (path : String) :
    Probing (Except String (UInt64 × UInt64 × UInt8)) :=
  if hasNul path then pure (.error "path contains nul byte")
  else do
    match ← statvfs path with
    | .error err => pure (.error err)
    | .ok stat => pure (usageOfStatvfs stat)

/-- The entry of a disk, from what reading its usage returned. -/
def diskEntry (disk : DiskConfig) : Except String (UInt64 × UInt64 × UInt8) → DiskCheck
  | .ok (totalBytes, availableBytes, percentRemaining) =>
    { path := disk.path
      status := if percentRemaining ≤ disk.threshold then .down else .up
      totalBytes := some totalBytes
      availableBytes := some availableBytes
      percentRemaining := some percentRemaining
      threshold := disk.threshold
      error := none }
  | .error err =>
    { path := disk.path
      status := .down
      totalBytes := none
      availableBytes := none
      percentRemaining := none
      threshold := disk.threshold
      error := some err }

def checkDisk (disk : DiskConfig) : Probing DiskCheck := do
  let usage ← diskUsagePercentRemaining disk.path
  pure (diskEntry disk usage)

structure DiskHealthCheck where
  disks : List DiskConfig

def DiskHealthCheck.new (config : List DiskConfig) : DiskHealthCheck := { disks := config }

def DiskHealthCheck.check (self : DiskHealthCheck) : Probing ComponentHealth :=
  joinedComponent checkDisk DiskCheck.status diskDetails self.disks

/-! ## The fields of an entry -/

theorem DiskCheck.field?_path (check : DiskCheck) :
    check.toValue.field? "path" = some (.string check.path) := by
  simp [DiskCheck.toValue]

theorem DiskCheck.field?_status (check : DiskCheck) :
    check.toValue.field? "status" = some check.status.toValue := by
  simp [DiskCheck.toValue]

theorem DiskCheck.field?_threshold (check : DiskCheck) :
    check.toValue.field? "threshold" = some (.number check.threshold.toNat) := by
  simp [DiskCheck.toValue]

/-! ## What a check reads -/

theorem hasNul_iff {path : String} : hasNul path = true ↔ Char.ofNat 0 ∈ path.toList := by
  simp [hasNul]

/-- The path can be passed on, and `statvfs` succeeds on it and fills in `stat`. -/
def Reports (o : World) (path : String) (stat : Statvfs) : Prop :=
  Char.ofNat 0 ∉ path.toList ∧ o.head (.statvfs path) = .ok stat

theorem diskUsagePercentRemaining_value (path : String) (o : World) :
    (diskUsagePercentRemaining path).value o =
      if hasNul path then .error "path contains nul byte"
      else (o.head (.statvfs path)).bind usageOfStatvfs := by
  unfold diskUsagePercentRemaining
  by_cases h : hasNul path = true
  · rw [if_pos h, if_pos h]
    rfl
  · rw [if_neg h, if_neg h, Future.value_request_bind]
    cases o.head (.statvfs path) <;> rfl

theorem checkDisk_value (disk : DiskConfig) (o : World) :
    (checkDisk disk).value o = diskEntry disk ((diskUsagePercentRemaining disk.path).value o) :=
  Future.value_bind_pure _ _ o

/-- A disk is read with one call, unless its path cannot be passed on. -/
theorem checkDisk_log (disk : DiskConfig) (o : World) :
    (checkDisk disk).log o =
      if hasNul disk.path then []
      else [⟨[], .statvfs disk.path, o.head (.statvfs disk.path)⟩] := by
  rw [checkDisk, Future.log_bind_pure]
  unfold diskUsagePercentRemaining
  by_cases h : hasNul disk.path = true
  · rw [if_pos h, if_pos h]
    rfl
  · rw [if_neg h, if_neg h, Future.log_request_bind]
    cases o.head (.statvfs disk.path) <;> rfl

theorem checkDisk_about (disk : DiskConfig) (o : World) :
    ((checkDisk disk).value o).path = disk.path ∧
      ((checkDisk disk).value o).threshold = disk.threshold := by
  rw [checkDisk_value]
  cases (diskUsagePercentRemaining disk.path).value o <;> exact ⟨rfl, rfl⟩

theorem usage_of_reports {o : World} {path : String} {stat : Statvfs} (h : Reports o path stat) :
    (diskUsagePercentRemaining path).value o = usageOfStatvfs stat := by
  rw [diskUsagePercentRemaining_value, if_neg (hasNul_iff.not.mpr h.1), h.2]
  rfl

theorem entry_of_reports (disk : DiskConfig) {o : World} {stat : Statvfs}
    (h : Reports o disk.path stat) :
    (checkDisk disk).value o = diskEntry disk (usageOfStatvfs stat) := by
  rw [checkDisk_value, usage_of_reports h]

/-! ## The arithmetic -/

/-- The bytes of a block: `f_frsize`, or `f_bsize` when `f_frsize` is 0. -/
def blockBytes (stat : Statvfs) : Nat :=
  if stat.fFrsize = 0 then stat.fBsize.toNat else stat.fFrsize.toNat

/-- The total number of bytes, as `u64::saturating_mul` computes it. -/
def total (stat : Statvfs) : Nat :=
  satMul maxU64 stat.fBlocks.toNat (blockBytes stat)

def available (stat : Statvfs) : Nat :=
  satMul maxU64 stat.fBavail.toNat (blockBytes stat)

/-- The percentage before it is narrowed to a `u8`. -/
def quotient (stat : Statvfs) : Nat := satMul maxU64 (available stat) 100 / total stat

/-- The percentage over the unbounded integers. -/
def exactPercent (stat : Statvfs) : Nat := 100 * stat.fBavail.toNat / stat.fBlocks.toNat

theorem toNat_blockSize (stat : Statvfs) : (blockSize stat).toNat = blockBytes stat := by
  unfold blockSize blockBytes
  by_cases h : stat.fFrsize = 0 <;> simp [h]

theorem blockBytes_eq_zero_iff (stat : Statvfs) :
    blockBytes stat = 0 ↔ stat.fFrsize = 0 ∧ stat.fBsize = 0 := by
  have hzero : ∀ n : UInt64, n.toNat = 0 ↔ n = 0 := fun n => UInt64.toNat_inj (b := 0)
  unfold blockBytes
  by_cases h : stat.fFrsize = 0
  · simp [h, hzero]
  · simp [h, hzero]

theorem toNat_totalBytes (stat : Statvfs) :
    (stat.fBlocks.saturatingMul (blockSize stat)).toNat = total stat := by
  rw [toNat_saturatingMul, toNat_blockSize, total]

theorem toNat_availableBytes (stat : Statvfs) :
    (stat.fBavail.saturatingMul (blockSize stat)).toNat = available stat := by
  rw [toNat_saturatingMul, toNat_blockSize, available]

theorem total_eq_zero_iff (stat : Statvfs) :
    total stat = 0 ↔ stat.fBlocks = 0 ∨ blockBytes stat = 0 := by
  rw [total, satMul_eq_zero_iff (by decide), ← UInt64.toNat_inj]
  rfl

theorem usageOfStatvfs_error (stat : Statvfs) (h : total stat = 0) :
    usageOfStatvfs stat = .error "filesystem reports zero total bytes" := by
  have hzero : stat.fBlocks.saturatingMul (blockSize stat) = 0 := by
    rw [← UInt64.toNat_inj, toNat_totalBytes]
    exact h
  simp only [usageOfStatvfs, hzero, if_true]

/-- What a usage that could be read reports. -/
theorem usageOfStatvfs_ok (stat : Statvfs) (h : total stat ≠ 0) :
    ∃ t a p, usageOfStatvfs stat = .ok (t, a, p) ∧ t.toNat = total stat ∧
      a.toNat = available stat ∧ p.toNat = quotient stat % 256 := by
  have hzero : ¬ stat.fBlocks.saturatingMul (blockSize stat) = 0 := by
    intro hc
    apply h
    rw [← UInt64.toNat_inj, toNat_totalBytes] at hc
    exact hc
  refine ⟨_, _, _, if_neg hzero, toNat_totalBytes stat, toNat_availableBytes stat, ?_⟩
  rw [UInt64.toNat_toUInt8, UInt64.toNat_div, toNat_saturatingMul, toNat_availableBytes,
    toNat_totalBytes]
  rfl

theorem available_le_total {stat : Statvfs} (h : stat.fBavail ≤ stat.fBlocks) :
    available stat ≤ total stat :=
  satMul_mono (UInt64.le_iff_toNat_le.mp h) _

theorem quotient_le_hundred {stat : Statvfs} (h : stat.fBavail ≤ stat.fBlocks) :
    quotient stat ≤ 100 :=
  satMul_div_le_of_le (available_le_total h)

/-- When the volume fits in a `u64` and is not over-full, both byte counts are
exact. -/
theorem bytes_exact {stat : Statvfs} (hav : stat.fBavail ≤ stat.fBlocks)
    (hfit : stat.fBlocks.toNat * blockBytes stat < 2 ^ 64) :
    total stat = stat.fBlocks.toNat * blockBytes stat ∧
      available stat = stat.fBavail.toNat * blockBytes stat := by
  have hle : stat.fBavail.toNat * blockBytes stat ≤
      stat.fBlocks.toNat * blockBytes stat :=
    Nat.mul_le_mul_right _ (UInt64.le_iff_toNat_le.mp hav)
  exact ⟨satMul_eq_mul (by unfold maxU64; omega), satMul_eq_mul (by unfold maxU64; omega)⟩

/-- The block size cancels from the exact quotient. -/
theorem exactPercent_eq {stat : Statvfs} (hbs : blockBytes stat ≠ 0)
    (hav : stat.fBavail ≤ stat.fBlocks)
    (hfit : stat.fBlocks.toNat * blockBytes stat < 2 ^ 64) :
    available stat * 100 / total stat = exactPercent stat := by
  have hpos : 0 < blockBytes stat := Nat.pos_of_ne_zero hbs
  obtain ⟨ht, ha⟩ := bytes_exact hav hfit
  rw [ht, ha, exactPercent, Nat.mul_right_comm, Nat.mul_div_mul_right _ _ hpos, Nat.mul_comm]

theorem quotient_le_exactPercent {stat : Statvfs} (hbs : blockBytes stat ≠ 0)
    (hav : stat.fBavail ≤ stat.fBlocks)
    (hfit : stat.fBlocks.toNat * blockBytes stat < 2 ^ 64) :
    quotient stat ≤ exactPercent stat := by
  rw [← exactPercent_eq hbs hav hfit]
  exact satMul_div_le _ _ _ _

/-- The quotient is exact when the exact percentage of the volume, that many
whole volumes, fits in a `u64`. -/
theorem quotient_eq_exactPercent_iff {stat : Statvfs} (hblocks : stat.fBlocks ≠ 0)
    (hbs : blockBytes stat ≠ 0) (hav : stat.fBavail ≤ stat.fBlocks)
    (hfit : stat.fBlocks.toNat * blockBytes stat < 2 ^ 64) :
    quotient stat = exactPercent stat ↔
      exactPercent stat * (stat.fBlocks.toNat * blockBytes stat) < 2 ^ 64 := by
  have htotal : 0 < total stat := by
    rw [Nat.pos_iff_ne_zero, ne_eq, total_eq_zero_iff]
    exact fun h => h.elim hblocks hbs
  rw [quotient, ← exactPercent_eq hbs hav hfit, satMul_div_eq_iff htotal, (bytes_exact hav hfit).1]
  unfold maxU64
  omega

end Disk

end AxumHealth
