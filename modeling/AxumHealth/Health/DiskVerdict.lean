import AxumHealth.Health.Disk

/-!
# The disk verdict

What the arithmetic of the disk check means for the verdict.  The reported
percentage is the exact one as long as that many whole volumes fit in a `u64`.
Past that size the product by 100 is clipped and the percentage falls short.  The
cast to `u8` is harmless for a volume that is not over-full, and only for such
volumes, or for those of 64 PiB and more, does the percentage grow with the
available space.
-/

namespace AxumHealth

open Concurrency Machine

namespace Disk

/-- The outside where `statvfs` always fills in `stat` and every other call
fails. -/
def reporting (stat : Statvfs) : World
  | _, _, .statvfs _ => .ok stat
  | place, n, q => offline place n q

theorem reports_reporting {path : String} (h : Char.ofNat 0 ∉ path.toList) (stat : Statvfs) :
    Reports (reporting stat) path stat :=
  ⟨h, rfl⟩

/-! ## Exactness -/

/-- The usage is read with the exact percentage, and the verdict for every
threshold is the one the exact percentage calls for. -/
def VerdictExact (o : World) (path : String) (stat : Statvfs) : Prop :=
  (∃ t a p, (diskUsagePercentRemaining path).value o = .ok (t, a, p) ∧
      p.toNat = exactPercent stat) ∧
    ∀ threshold, ((checkDisk ⟨path, threshold⟩).value o).status = .down ↔
      exactPercent stat ≤ threshold.toNat

theorem total_ne_zero {stat : Statvfs} (hbs : blockBytes stat ≠ 0) (hblocks : stat.fBlocks ≠ 0) :
    total stat ≠ 0 := by
  rw [ne_eq, total_eq_zero_iff]
  exact fun h => h.elim hblocks hbs

/-- What the check of a disk makes of a filesystem that reports some bytes: the
quotient, narrowed to a `u8`, against the threshold. -/
structure Reading (o : World) (disk : DiskConfig) (stat : Statvfs) (t a : UInt64) (p : UInt8) :
    Prop where
  usage : (diskUsagePercentRemaining disk.path).value o = .ok (t, a, p)
  total : t.toNat = Disk.total stat
  available : a.toNat = Disk.available stat
  percent : p.toNat = quotient stat % 256
  entry : ((checkDisk disk).value o).percentRemaining = some p
  up_iff : ((checkDisk disk).value o).status = .up ↔ disk.threshold.toNat < p.toNat

theorem reading_of_reports (disk : DiskConfig) {o : World} {stat : Statvfs}
    (hreports : Reports o disk.path stat) (htotal : total stat ≠ 0) :
    ∃ t a p, Reading o disk stat t a p := by
  obtain ⟨t, a, p, husage, ht, ha, hp⟩ := usageOfStatvfs_ok stat htotal
  have hentry := entry_of_reports disk hreports
  rw [husage] at hentry
  refine ⟨t, a, p, (usage_of_reports hreports).trans husage, ht, ha, hp, by rw [hentry]; rfl, ?_⟩
  rw [hentry, ← UInt8.lt_iff_toNat_lt, ← UInt8.not_le]
  by_cases hle : p ≤ disk.threshold <;> simp [diskEntry, hle]

theorem verdictExact_iff {path : String} {stat : Statvfs} {o : World}
    (hreports : Reports o path stat) (hbs : blockBytes stat ≠ 0) (hblocks : stat.fBlocks ≠ 0)
    (hav : stat.fBavail ≤ stat.fBlocks)
    (hfit : stat.fBlocks.toNat * blockBytes stat < 2 ^ 64) :
    VerdictExact o path stat ↔
      exactPercent stat * (stat.fBlocks.toNat * blockBytes stat) < 2 ^ 64 := by
  rw [← quotient_eq_exactPercent_iff hblocks hbs hav hfit]
  have htotal := total_ne_zero hbs hblocks
  have hsmall := quotient_le_hundred hav
  constructor
  · rintro ⟨⟨t, a, p, husage, hexact⟩, -⟩
    obtain ⟨t', a', p', hreading⟩ := reading_of_reports ⟨path, 0⟩ hreports htotal
    have heq := husage.symm.trans hreading.usage
    cases heq
    have hp := hreading.percent
    omega
  · intro hexact
    constructor
    · obtain ⟨t, a, p, hreading⟩ := reading_of_reports ⟨path, 0⟩ hreports htotal
      have hp := hreading.percent
      exact ⟨t, a, p, hreading.usage, by omega⟩
    · intro threshold
      obtain ⟨t, a, p, hreading⟩ := reading_of_reports ⟨path, threshold⟩ hreports htotal
      have hp := hreading.percent
      rw [Status.eq_down_iff, ne_eq, hreading.up_iff]
      show ¬ threshold.toNat < p.toNat ↔ _
      omega

/-- An empty volume of 8 EiB, in blocks of 4 KiB. -/
def hugeVolume : Statvfs :=
  { fFrsize := 4096, fBsize := 4096, fBlocks := 2251799813685248, fBavail := 2251799813685248 }

/-- All of the volume is available and it is reported at 1 percent. -/
theorem hugeVolume_not_exact :
    Reports (reporting hugeVolume) "/" hugeVolume ∧ blockBytes hugeVolume ≠ 0 ∧
      hugeVolume.fBlocks ≠ 0 ∧ hugeVolume.fBavail ≤ hugeVolume.fBlocks ∧
      hugeVolume.fBlocks.toNat * blockBytes hugeVolume < 2 ^ 64 ∧
      exactPercent hugeVolume = 100 ∧
      (diskUsagePercentRemaining "/").value (reporting hugeVolume) =
        .ok (9223372036854775808, 9223372036854775808, 1) ∧
      ¬ VerdictExact (reporting hugeVolume) "/" hugeVolume := by
  refine ⟨reports_reporting (by decide) _, by decide, by decide, by decide, by decide, by decide,
    rfl, ?_⟩
  rintro ⟨-, hverdict⟩
  have hdown : ((checkDisk ⟨"/", 5⟩).value (reporting hugeVolume)).status = .down := rfl
  exact absurd ((hverdict 5).mp hdown) (by decide)

/-- A volume of 1000 blocks, 255 of them available, that fills in `f_bsize` only. -/
def smallVolume : Statvfs := { fFrsize := 0, fBsize := 4096, fBlocks := 1000, fBavail := 255 }

theorem verdictExact_smallVolume : VerdictExact (reporting smallVolume) "/" smallVolume :=
  (verdictExact_iff (reports_reporting (by decide) _) (by decide) (by decide) (by decide)
    (by decide)).mpr (by decide)

/-! ## More free space -/

/-- The second of two readings of a disk does not raise an alarm that the first
one does not, and does not report a smaller percentage. -/
def NoNewAlarm (disk : DiskConfig) (o o' : World) : Prop :=
  (((checkDisk disk).value o).status = .up → ((checkDisk disk).value o').status = .up) ∧
    ∀ p p', ((checkDisk disk).value o).percentRemaining = some p →
      ((checkDisk disk).value o').percentRemaining = some p' → p ≤ p'

/-- The quotient for a reading of `n` available blocks. -/
def quotientAt (stat : Statvfs) (n : Nat) : Nat :=
  satMul maxU64 (satMul maxU64 n (blockBytes stat)) 100 / total stat

theorem quotient_withBavail (stat : Statvfs) (a : UInt64) :
    quotient { stat with fBavail := a } = quotientAt stat a.toNat := rfl

theorem quotientAt_mono (stat : Statvfs) {n n' : Nat} (h : n ≤ n') :
    quotientAt stat n ≤ quotientAt stat n' :=
  Nat.div_le_div_right (satMul_mono (satMul_mono h _) _)

/-- One more block adds at most 100 to the quotient. -/
theorem quotientAt_succ_le {stat : Statvfs} (hbs : blockBytes stat ≠ 0)
    (hblocks : stat.fBlocks ≠ 0) (n : Nat) :
    quotientAt stat (n + 1) ≤ quotientAt stat n + 100 := by
  have hpos : 0 < total stat := Nat.pos_of_ne_zero (total_ne_zero hbs hblocks)
  have hb : 0 < stat.fBlocks.toNat := toNat_pos hblocks
  -- The volume has at least one block, unless its size was clipped.
  have hblock : blockBytes stat ≤ total stat ∨ total stat = maxU64 := by
    rcases Nat.le_total (stat.fBlocks.toNat * blockBytes stat) maxU64 with h | h
    · left
      rw [total, satMul_eq_mul h]
      exact Nat.le_mul_of_pos_left _ hb
    · exact .inr (satMul_eq_cap h)
  unfold quotientAt
  rw [← Nat.add_mul_div_right _ _ hpos]
  apply Nat.div_le_div_right
  have hmul : (n + 1) * blockBytes stat =
      n * blockBytes stat + blockBytes stat := Nat.succ_mul _ _
  simp only [satMul, hmul]
  omega

/-- The quotient of `n` available blocks leaves a `u8` when the blocks are more
than 2.56 times the volume, unless the volume is too large for it. -/
theorem le_quotientAt_iff {stat : Statvfs} (hbs : blockBytes stat ≠ 0)
    (hblocks : stat.fBlocks ≠ 0) (n : Nat) :
    256 ≤ quotientAt stat n ↔
      256 * stat.fBlocks.toNat ≤ 100 * n ∧
        256 * (stat.fBlocks.toNat * blockBytes stat) < 2 ^ 64 := by
  have hpos : 0 < total stat := Nat.pos_of_ne_zero (total_ne_zero hbs hblocks)
  have hsize : 0 < blockBytes stat := Nat.pos_of_ne_zero hbs
  have hcancel : 256 * stat.fBlocks.toNat ≤ 100 * n ↔
      256 * (stat.fBlocks.toNat * blockBytes stat) ≤
        n * blockBytes stat * 100 := by
    have hn : n * blockBytes stat * 100 = 100 * n * blockBytes stat := by
      rw [Nat.mul_comm, ← Nat.mul_assoc]
    rw [hn, ← Nat.mul_assoc, Nat.mul_le_mul_right_iff hsize]
  rw [quotientAt, Nat.le_div_iff_mul_le hpos, hcancel]
  simp only [total, satMul, maxU64]
  omega

theorem quotientAt_zero (stat : Statvfs) : quotientAt stat 0 = 0 := by
  simp [quotientAt, satMul]

/-- Two readings of one disk compare as the narrowed quotients do. -/
theorem noNewAlarm_iff_le {disk : DiskConfig} {stat : Statvfs} {a a' : UInt64} {o o' : World}
    (hzero : total stat ≠ 0) (hr : Reports o disk.path { stat with fBavail := a })
    (hr' : Reports o' disk.path { stat with fBavail := a' }) :
    NoNewAlarm disk o o' ↔ quotientAt stat a.toNat % 256 ≤ quotientAt stat a'.toNat % 256 := by
  obtain ⟨t, b, p, hreading⟩ := reading_of_reports disk hr hzero
  obtain ⟨t', b', p', hreading'⟩ := reading_of_reports disk hr' hzero
  have hp := hreading.percent
  have hp' := hreading'.percent
  rw [quotient_withBavail] at hp hp'
  rw [← hp, ← hp', ← UInt8.le_iff_toNat_le]
  constructor
  · intro hsafe
    exact hsafe.2 p p' hreading.entry hreading'.entry
  · intro hle
    constructor
    · rw [hreading.up_iff, hreading'.up_iff]
      rw [UInt8.le_iff_toNat_le] at hle
      omega
    · intro q q' hq hq'
      rw [hreading.entry] at hq
      rw [hreading'.entry] at hq'
      cases hq
      cases hq'
      exact hle

/-- Readings that fail have nothing to compare. -/
theorem noNewAlarm_of_total_eq_zero {disk : DiskConfig} {stat : Statvfs} {a a' : UInt64}
    {o o' : World} (hzero : total stat = 0)
    (hr : Reports o disk.path { stat with fBavail := a })
    (hr' : Reports o' disk.path { stat with fBavail := a' }) : NoNewAlarm disk o o' := by
  have he := usageOfStatvfs_error { stat with fBavail := a } hzero
  have he' := usageOfStatvfs_error { stat with fBavail := a' } hzero
  simp [NoNewAlarm, entry_of_reports disk hr, entry_of_reports disk hr', he, he', diskEntry]

/-- When the quotient leaves a `u8` below `limit`, one block more makes the
narrowed quotient smaller somewhere below it. -/
theorem exists_narrowed_lt {stat : Statvfs} (hbs : blockBytes stat ≠ 0)
    (hblocks : stat.fBlocks ≠ 0) {limit : Nat} (h : 256 ≤ quotientAt stat limit) :
    ∃ n, n < limit ∧ quotientAt stat (n + 1) % 256 < quotientAt stat n % 256 := by
  apply exists_mod_lt_mod
  · rw [quotientAt_zero]
    omega
  · intro n
    have hstep := quotientAt_succ_le hbs hblocks n
    omega
  · exact h

/-- For the readings up to `limit` the verdict never gets worse with more space,
exactly when `limit` is within 2.56 times the volume, or the volume has 64 PiB or
more, or it reports no bytes at all. -/
theorem noNewAlarm_iff (stat : Statvfs) (limit : UInt64) :
    (∀ (disk : DiskConfig) (a a' : UInt64) (o o' : World), a ≤ a' → a' ≤ limit →
        Reports o disk.path { stat with fBavail := a } →
        Reports o' disk.path { stat with fBavail := a' } → NoNewAlarm disk o o') ↔
      stat.fBlocks = 0 ∨ blockBytes stat = 0 ∨
        100 * limit.toNat < 256 * stat.fBlocks.toNat ∨
        2 ^ 64 ≤ 256 * (stat.fBlocks.toNat * blockBytes stat) := by
  by_cases hzero : total stat = 0
  · have hdegenerate := (total_eq_zero_iff stat).mp hzero
    refine iff_of_true ?_ (hdegenerate.imp_right .inl)
    intro disk a a' o o' _ _ hr hr'
    exact noNewAlarm_of_total_eq_zero hzero hr hr'
  have hblocks : stat.fBlocks ≠ 0 := fun h => hzero ((total_eq_zero_iff stat).mpr (.inl h))
  have hbs : blockBytes stat ≠ 0 := fun h => hzero ((total_eq_zero_iff stat).mpr (.inr h))
  have hiff := le_quotientAt_iff hbs hblocks limit.toNat
  constructor
  · intro hall
    by_contra hnot
    have hreach : 256 ≤ quotientAt stat limit.toNat := by
      rw [hiff]
      omega
    obtain ⟨n, hn, hlt⟩ := exists_narrowed_lt hbs hblocks hreach
    have hbound : limit.toNat < UInt64.size := limit.toNat_lt
    have hval : (UInt64.ofNat n).toNat = n := UInt64.toNat_ofNat_of_lt' (by omega)
    have hval' : (UInt64.ofNat (n + 1)).toNat = n + 1 := UInt64.toNat_ofNat_of_lt' (by omega)
    have hr : ∀ stat', Reports (reporting stat') "/" stat' := reports_reporting (by decide)
    have hsafe := hall ⟨"/", 0⟩ (UInt64.ofNat n) (UInt64.ofNat (n + 1)) _ _
      (by rw [UInt64.le_iff_toNat_le]; omega) (by rw [UInt64.le_iff_toNat_le]; omega) (hr _) (hr _)
    have hle := (@noNewAlarm_iff_le ⟨"/", 0⟩ stat (UInt64.ofNat n) (UInt64.ofNat (n + 1)) _ _
      hzero (hr _) (hr _)).mp hsafe
    rw [hval, hval'] at hle
    omega
  · intro hcond disk a a' o o' haa' hlimit hr hr'
    have hbelow : ¬ 256 ≤ quotientAt stat limit.toNat := by
      rw [hiff]
      rcases hcond with h | h | h | h
      · exact absurd h hblocks
      · exact absurd h hbs
      · omega
      · omega
    have hmono := quotientAt_mono stat (UInt64.le_iff_toNat_le.mp haa')
    have hmono' := quotientAt_mono stat (UInt64.le_iff_toNat_le.mp hlimit)
    rw [noNewAlarm_iff_le hzero hr hr']
    omega

/-- A volume of one block: 2 available blocks are reported as 200 percent and 3
as 44. -/
theorem one_block_new_alarm :
    Reports (reporting ⟨1, 1, 1, 2⟩) "/" ⟨1, 1, 1, 2⟩ ∧
      Reports (reporting ⟨1, 1, 1, 3⟩) "/" ⟨1, 1, 1, 3⟩ ∧
      ((checkDisk ⟨"/", 100⟩).value (reporting ⟨1, 1, 1, 2⟩)).status = .up ∧
      ((checkDisk ⟨"/", 100⟩).value (reporting ⟨1, 1, 1, 3⟩)).status = .down ∧
      ¬ NoNewAlarm ⟨"/", 100⟩ (reporting ⟨1, 1, 1, 2⟩) (reporting ⟨1, 1, 1, 3⟩) := by
  refine ⟨reports_reporting (by decide) _, reports_reporting (by decide) _, rfl, rfl, ?_⟩
  intro h
  exact absurd (h.1 rfl) (by decide)

/-! ## The limits of the arithmetic -/

/-- On a volume that is not over-full the division is never by zero, the cast to
`u8` loses nothing, and a clipped product can only make the percentage smaller. -/
theorem disk_arithmetic_safe {path : String} {stat : Statvfs} {o : World}
    (hreports : Reports o path stat) (hav : stat.fBavail ≤ stat.fBlocks) :
    ((∃ err, (diskUsagePercentRemaining path).value o = .error err) ↔
        stat.fBlocks = 0 ∨ (stat.fFrsize = 0 ∧ stat.fBsize = 0)) ∧
      (∀ t a p, (diskUsagePercentRemaining path).value o = .ok (t, a, p) →
        t ≠ 0 ∧ a ≤ t ∧ (a.saturatingMul 100 / t).toNat ≤ 100 ∧
          p.toNat = (a.saturatingMul 100 / t).toNat) ∧
      (stat.fBlocks.toNat * blockBytes stat < 2 ^ 64 →
        ∀ t a p, (diskUsagePercentRemaining path).value o = .ok (t, a, p) →
          p.toNat ≤ exactPercent stat ∧
            ∀ threshold, ((checkDisk ⟨path, threshold⟩).value o).status = .up →
              threshold.toNat < exactPercent stat) ∧
      ∃ path' stat' o' threshold, Reports o' path' stat' ∧ stat'.fBavail ≤ stat'.fBlocks ∧
        stat'.fBlocks.toNat * blockBytes stat' < 2 ^ 64 ∧
        ((checkDisk ⟨path', threshold⟩).value o').status = .down ∧
        threshold.toNat < exactPercent stat' := by
  have hfalseDown : ∃ path' stat' o' threshold, Reports o' path' stat' ∧
      stat'.fBavail ≤ stat'.fBlocks ∧
      stat'.fBlocks.toNat * blockBytes stat' < 2 ^ 64 ∧
      ((checkDisk ⟨path', threshold⟩).value o').status = .down ∧
      threshold.toNat < exactPercent stat' :=
    ⟨"/", hugeVolume, reporting hugeVolume, 5, reports_reporting (by decide) _, by decide,
      by decide, rfl, by decide⟩
  rw [← blockBytes_eq_zero_iff, ← total_eq_zero_iff]
  by_cases hzero : total stat = 0
  · have husage := (usage_of_reports hreports).trans (usageOfStatvfs_error stat hzero)
    rw [husage]
    refine ⟨iff_of_true ⟨_, rfl⟩ hzero, ?_, ?_, hfalseDown⟩
    · intro t a p h
      cases h
    · intro _ t a p h
      cases h
  obtain ⟨t, a, p, hreading⟩ := reading_of_reports ⟨path, 0⟩ hreports hzero
  have hp := hreading.percent
  have hsmall := quotient_le_hundred hav
  have hquot : (a.saturatingMul 100 / t).toNat = quotient stat := by
    rw [UInt64.toNat_div, toNat_saturatingMul, hreading.available, hreading.total]
    rfl
  rw [hreading.usage]
  refine ⟨iff_of_false (by rintro ⟨err, h⟩; cases h) hzero, ?_, ?_, hfalseDown⟩
  · intro t' a' p' h
    cases h
    refine ⟨?_, ?_, by omega, by omega⟩
    · intro h0
      exact hzero (by rw [← hreading.total, h0]; rfl)
    · rw [UInt64.le_iff_toNat_le, hreading.available, hreading.total]
      exact available_le_total hav
  · intro hfit t' a' p' h
    cases h
    have hbs : blockBytes stat ≠ 0 := fun h => hzero ((total_eq_zero_iff stat).mpr (.inr h))
    have hexact := quotient_le_exactPercent hbs hav hfit
    refine ⟨by omega, ?_⟩
    intro threshold hup
    obtain ⟨t', a', p', hreading'⟩ := reading_of_reports ⟨path, threshold⟩ hreports hzero
    have hp' := hreading'.percent
    have hlt : threshold.toNat < p'.toNat := hreading'.up_iff.mp hup
    omega

theorem smallVolume_readable :
    ¬ ∃ err, (diskUsagePercentRemaining "/").value (reporting smallVolume) = .error err := by
  rw [(disk_arithmetic_safe (reports_reporting (by decide) smallVolume) (by decide)).1]
  decide

end Disk

end AxumHealth
