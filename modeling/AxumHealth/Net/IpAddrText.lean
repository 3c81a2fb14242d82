import AxumHealth.Net.IpAddr
import Mathlib.Data.UInt

/-!
# The text of an address is read back

`IpAddr::to_string` and `str::parse` are inverse to each other on every address:
an IPv4 address, an IPv4-mapped one, which ends like an IPv4 address, and an IPv6
address with its longest run of zero segments left out or with none.
-/

namespace AxumHealth

namespace IpAddr

/-! ## Numbers -/

/-- What follows a number of the base does not go on with a digit. -/
def NoDigit (radix : Nat) (rest : List Char) : Prop :=
  ∀ c, rest.head? = some c → digit? radix c = none

theorem noDigit_nil (radix : Nat) : NoDigit radix [] := by
  intro c h
  cases h

theorem noDigit_cons {radix : Nat} {c : Char} (h : digit? radix c = none) (rest : List Char) :
    NoDigit radix (c :: rest) := by
  intro d hd
  obtain rfl := Option.some.inj hd
  exact h

theorem digit?_ten : ∀ d < 10, digit? 10 (Nat.digitChar d) = some d := by
  decide

theorem digit?_sixteen : ∀ d < 16, digit? 16 (Nat.digitChar d) = some d := by
  decide

/-- The digits of a number are read one after the other. -/
theorem readDigits_append {radix : Nat} (hradix : 1 < radix)
    (hdigit : ∀ d < radix, digit? radix (Nat.digitChar d) = some d) (n : Nat) (cs : List Char) :
    readDigits radix (Nat.toDigits radix n ++ cs) 0 0 =
      readDigits radix cs n (Nat.toDigits radix n).length := by
  induction n using Nat.strongRecOn generalizing cs with
  | ind n ih =>
    rw [Nat.toDigits_eq_if hradix]
    by_cases hn : n < radix
    · rw [if_pos hn, List.singleton_append, readDigits, hdigit n hn]
      simp
    · have hdiv : n / radix < n := Nat.div_lt_self (by omega) hradix
      have hmod : n % radix < radix := Nat.mod_lt _ (by omega)
      rw [if_neg hn, List.append_assoc, ih _ hdiv, List.singleton_append, readDigits,
        hdigit _ hmod]
      simp only [List.length_append, List.length_singleton]
      rw [Nat.div_add_mod']

theorem readDigits_stop {radix : Nat} {rest : List Char} (h : NoDigit radix rest)
    (result count : Nat) : readDigits radix rest result count = (result, count, rest) := by
  cases rest with
  | nil => rfl
  | cons c rest => rw [readDigits, h c rfl]

/-- No number but 0 starts with a zero. -/
theorem head?_toDigits {radix : Nat} (hradix : 1 < radix)
    (hdigit : ∀ d < radix, digit? radix (Nat.digitChar d) = some d)
    (hzero : digit? radix '0' = some 0) (n : Nat) (hn : 0 < n) :
    (Nat.toDigits radix n).head? ≠ some '0' := by
  induction n using Nat.strongRecOn with
  | ind n ih =>
    rw [Nat.toDigits_eq_if hradix]
    by_cases hlt : n < radix
    · rw [if_pos hlt]
      intro heq
      have hd := hdigit n hlt
      rw [List.head?_cons, Option.some.injEq] at heq
      rw [heq, hzero] at hd
      have hd := Option.some.inj hd
      omega
    · have hdiv : n / radix < n := Nat.div_lt_self hn hradix
      have hpos : 0 < n / radix := Nat.div_pos (by omega) (by omega)
      rw [if_neg hlt, List.head?_append_of_ne_nil _ Nat.toDigits_ne_nil]
      exact ih _ hdiv hpos

/-- A number that is short enough is read back with any readers' limits on zeros. -/
theorem readNumber_toDigits {radix maxDigits : Nat} (hradix : 1 < radix)
    (hdigit : ∀ d < radix, digit? radix (Nat.digitChar d) = some d)
    (hzero : digit? radix '0' = some 0) (hmax : 0 < maxDigits) (allowZeroPrefix : Bool) {n : Nat}
    (hn : n < radix ^ maxDigits) {rest : List Char} (hrest : NoDigit radix rest) :
    readNumber radix maxDigits allowZeroPrefix (Nat.toDigits radix n ++ rest) =
      some (n, rest) := by
  have hlength : (Nat.toDigits radix n).length ≤ maxDigits :=
    (Nat.length_toDigits_le_iff hradix hmax).mpr hn
  have hpos : 0 < (Nat.toDigits radix n).length := Nat.length_toDigits_pos
  -- A text of more than one digit is that of a number that does not start with 0.
  have hprefix : ¬ ((Nat.toDigits radix n ++ rest).head? = some '0' ∧
      1 < (Nat.toDigits radix n).length) := by
    intro h
    obtain ⟨hhead, hlong⟩ := h
    rw [List.head?_append_of_ne_nil _ Nat.toDigits_ne_nil] at hhead
    rcases Nat.eq_zero_or_pos n with rfl | hn
    · rw [Nat.toDigits_zero] at hlong
      exact absurd hlong (by decide)
    · exact head?_toDigits hradix hdigit hzero n hn hhead
  unfold readNumber
  rw [readDigits_append hradix hdigit, readDigits_stop hrest]
  simp only
  rw [if_neg (by omega), if_neg]
  intro h
  simp only [Bool.and_eq_true, beq_iff_eq, decide_eq_true_eq] at h
  exact hprefix ⟨h.1.2, h.2⟩

/-! ## IPv4 -/

/-- The text of an octet. -/
def octetText (octet : UInt8) : List Char := Nat.toDigits 10 octet.toNat

theorem readOctet_octetText (octet : UInt8) {rest : List Char} (hrest : NoDigit 10 rest) :
    readOctet (octetText octet ++ rest) = some (octet, rest) := by
  have hlt : octet.toNat < 256 := octet.toNat_lt
  unfold readOctet octetText
  rw [readNumber_toDigits (by decide) digit?_ten (by decide) (by decide) false
    (Nat.lt_trans hlt (by decide)) hrest]
  simp only
  rw [if_pos hlt]
  simp

theorem exists_octets (octets : Vector UInt8 4) : ∃ a b c d, octets = #v[a, b, c, d] := by
  obtain ⟨⟨items⟩, hsize⟩ := octets
  match items, hsize with
  | [a, b, c, d], _ => exact ⟨a, b, c, d, rfl⟩

theorem toList_octetsToString (a b c d : UInt8) :
    (octetsToString #v[a, b, c, d]).toList =
      octetText a ++ '.' :: (octetText b ++ '.' :: (octetText c ++ '.' :: octetText d)) := by
  simp [octetsToString, String.intercalate_cons_cons, octetText]

theorem readSeparator_cons {α : Type} {sep : Char} {index : Nat} (hindex : 0 < index)
    (inner : List Char → Option (α × List Char)) (cs : List Char) :
    readSeparator sep index inner (sep :: cs) = inner cs := by
  cases index with
  | zero => exact absurd hindex (Nat.lt_irrefl 0)
  | succ index => exact if_pos rfl

theorem readIpv4_octetsToString (octets : Vector UInt8 4) {rest : List Char}
    (hrest : NoDigit 10 rest) :
    readIpv4 ((octetsToString octets).toList ++ rest) = some (octets, rest) := by
  obtain ⟨a, b, c, d, rfl⟩ := exists_octets octets
  have hdot : ∀ cs, NoDigit 10 ('.' :: cs) := noDigit_cons (by decide)
  rw [toList_octetsToString]
  simp only [List.append_assoc, List.cons_append]
  unfold readIpv4
  rw [show ∀ cs, readSeparator '.' 0 readOctet cs = readOctet cs from fun cs => rfl,
    readOctet_octetText a (hdot _)]
  simp only [Option.bind_eq_bind, Option.bind_some]
  rw [readSeparator_cons (by decide), readOctet_octetText b (hdot _)]
  simp only [Option.bind_some]
  rw [readSeparator_cons (by decide), readOctet_octetText c (hdot _)]
  simp only [Option.bind_some]
  rw [readSeparator_cons (by decide), readOctet_octetText d hrest]
  rfl

/-- What is left was there before. -/
theorem readDigits_subset (radix : Nat) (cs : List Char) (result count : Nat) :
    (readDigits radix cs result count).2.2 ⊆ cs := by
  induction cs generalizing result count with
  | nil => exact List.Subset.refl _
  | cons c cs ih =>
    unfold readDigits
    cases digit? radix c with
    | none => exact List.Subset.refl _
    | some d => exact List.Subset.trans (ih _ _) (List.subset_cons_self c cs)

theorem readOctet_subset {cs rest : List Char} {octet : UInt8}
    (h : readOctet cs = some (octet, rest)) : rest ⊆ cs := by
  have hsubset := readDigits_subset 10 cs 0 0
  unfold readOctet readNumber at h
  generalize readDigits 10 cs 0 0 = digits at h hsubset
  obtain ⟨result, count, left⟩ := digits
  simp only at h hsubset
  by_cases hcount : count = 0 ∨ 3 < count
  · simp [hcount] at h
  by_cases hzero : (!false && cs.head? == some '0' && decide (1 < count)) = true
  · rw [if_neg hcount, if_pos hzero] at h
    cases h
  rw [if_neg hcount, if_neg hzero] at h
  by_cases hlt : result < 256
  · simp only [hlt, if_true, Option.some.injEq, Prod.mk.injEq] at h
    rw [← h.2]
    exact hsubset
  · simp [hlt] at h

/-- An address of four octets has a dot in it. -/
theorem readIpv4_eq_none {cs : List Char} (h : '.' ∉ cs) : readIpv4 cs = none := by
  unfold readIpv4
  rw [show readSeparator '.' 0 readOctet cs = readOctet cs from rfl]
  cases hoctet : readOctet cs with
  | none => rfl
  | some p =>
    obtain ⟨octet, rest⟩ := p
    have hsubset := readOctet_subset hoctet
    have hnone : readSeparator '.' 1 readOctet rest = none := by
      cases rest with
      | nil => rfl
      | cons c rest =>
        have hc : c ≠ '.' := fun heq => h (heq ▸ hsubset List.mem_cons_self)
        exact if_neg hc
    simp only [Option.bind_eq_bind, Option.bind_some]
    rw [hnone]
    rfl

theorem readIpv4_colon (cs : List Char) : readIpv4 (':' :: cs) = none := rfl

/-! ## Groups -/

/-- The text of a group. -/
def groupText (group : UInt16) : List Char := Nat.toDigits 16 group.toNat

/-- The text of groups after another one. -/
def following (groups : List UInt16) : List Char := groups.flatMap fun g => ':' :: groupText g

theorem readGroup_groupText (group : UInt16) {rest : List Char} (hrest : NoDigit 16 rest) :
    readGroup (groupText group ++ rest) = some (group, rest) := by
  have hlt : group.toNat < 65536 := group.toNat_lt
  unfold readGroup groupText
  rw [readNumber_toDigits (by decide) digit?_sixteen (by decide) (by decide) true hlt hrest]
  simp

theorem toList_subslice (group : UInt16) (groups : List UInt16) :
    (subslice (group :: groups)).toList = groupText group ++ following groups := by
  induction groups generalizing group with
  | nil => simp [subslice, following, groupText]
  | cons next groups ih =>
    have hnext := ih next
    rw [subslice, List.map_cons] at hnext
    rw [subslice, List.map_cons, List.map_cons, String.intercalate_cons_cons]
    simp [hnext, following, groupText]

theorem mem_toDigits {radix n : Nat} (hradix : 1 < radix) {c : Char}
    (h : c ∈ Nat.toDigits radix n) : ∃ d < radix, c = Nat.digitChar d := by
  induction n using Nat.strongRecOn with
  | ind n ih =>
    rw [Nat.toDigits_eq_if hradix] at h
    by_cases hn : n < radix
    · rw [if_pos hn] at h
      exact ⟨n, hn, List.mem_singleton.mp h⟩
    · rw [if_neg hn] at h
      rcases List.mem_append.mp h with h | h
      · exact ih _ (Nat.div_lt_self (by omega) hradix) h
      · exact ⟨n % radix, Nat.mod_lt _ (by omega), List.mem_singleton.mp h⟩

/-- The texts of groups have no dots. -/
theorem not_mem_groupText (group : UInt16) : '.' ∉ groupText group := by
  intro h
  obtain ⟨d, hd, hdot⟩ := mem_toDigits (by decide) h
  have hall : ∀ d < 16, '.' ≠ Nat.digitChar d := by decide
  exact hall d hd hdot

theorem not_mem_following {groups : List UInt16} {rest : List Char} (h : '.' ∉ rest) :
    '.' ∉ following groups ++ rest := by
  intro hmem
  rcases List.mem_append.mp hmem with hmem | hmem
  · obtain ⟨g, -, hg⟩ := List.mem_flatMap.mp hmem
    rcases List.mem_cons.mp hg with heq | hg
    · exact absurd heq (by decide)
    · exact not_mem_groupText g hg
  · exact h hmem

/-- The groups end here: the text does, or a run of zeros is left out. -/
def Stops (rest : List Char) : Prop := rest = [] ∨ ∃ cs, rest = ':' :: ':' :: cs

theorem Stops.noDigit {rest : List Char} (h : Stops rest) : NoDigit 16 rest := by
  rcases h with rfl | ⟨cs, rfl⟩
  · exact noDigit_nil 16
  · exact noDigit_cons (by decide) _

/-- Nothing more is read where the groups end. -/
theorem readGroups_stop {rest : List Char} (h : Stops rest) (limit room : Nat)
    (groups : List UInt16) : readGroups limit room rest groups = (groups, false, rest) := by
  cases room with
  | zero => rfl
  | succ room =>
    have hnone : ∀ {α : Type} (inner : List Char → Option (α × List Char)), inner [] = none →
        (∀ cs, inner (':' :: cs) = none) →
        readSeparator ':' groups.length inner rest = none := by
      intro α inner hnil hcolon
      rcases h with rfl | ⟨cs, rfl⟩
      · cases groups with
        | nil => exact hnil
        | cons g groups => rfl
      · cases groups with
        | nil => exact hcolon _
        | cons g groups => exact (readSeparator_cons (Nat.succ_pos _) inner _).trans (hcolon _)
    unfold readGroups
    simp only
    rw [hnone readIpv4 rfl readIpv4_colon, ite_self, hnone readGroup rfl fun cs => rfl]

theorem Stops.noDigit_following {rest : List Char} (h : Stops rest) (more : List UInt16) :
    NoDigit 16 (following more ++ rest) := by
  cases more with
  | nil => exact h.noDigit
  | cons g more => exact noDigit_cons (by decide) _

/-- One group is read, and the text is not that of an IPv4 address. -/
theorem readGroups_group {limit room : Nat} {group : UInt16} {groups : List UInt16}
    {cs rest : List Char} (hrest : NoDigit 16 rest) (hdot : '.' ∉ rest)
    (hcs : ∀ {α : Type} (inner : List Char → Option (α × List Char)),
      readSeparator ':' groups.length inner cs = inner (groupText group ++ rest)) :
    readGroups limit (room + 1) cs groups = readGroups limit room rest (groups ++ [group]) := by
  have hnone : readIpv4 (groupText group ++ rest) = none := by
    apply readIpv4_eq_none
    rw [List.mem_append]
    exact fun h => h.elim (not_mem_groupText group) hdot
  conv => lhs; unfold readGroups
  simp only
  rw [hcs readIpv4, hnone, ite_self, hcs readGroup, readGroup_groupText group hrest]

/-- Groups that follow another one are read one after the other. -/
theorem readGroups_following {limit : Nat} {rest : List Char} (hstop : Stops rest)
    (hdot : '.' ∉ rest) (more groups : List UInt16) {room : Nat}
    (hgroups : 0 < groups.length) (hroom : more.length ≤ room) :
    readGroups limit room (following more ++ rest) groups = (groups ++ more, false, rest) := by
  induction more generalizing groups room with
  | nil =>
    rw [List.append_nil]
    exact readGroups_stop hstop limit room groups
  | cons g more ih =>
    have hcs : ∀ {α : Type} (inner : List Char → Option (α × List Char)),
        readSeparator ':' groups.length inner (following (g :: more) ++ rest) =
          inner (groupText g ++ (following more ++ rest)) := by
      intro α inner
      have htext : following (g :: more) ++ rest =
          ':' :: (groupText g ++ (following more ++ rest)) := by
        simp [following]
      rw [htext, readSeparator_cons hgroups]
    cases room with
    | zero => exact absurd hroom (Nat.not_succ_le_zero _)
    | succ room =>
      rw [List.length_cons] at hroom
      rw [readGroups_group (hstop.noDigit_following more) (not_mem_following hdot) hcs,
        ih (groups ++ [g]) (by simp) (by omega), List.append_assoc]
      rfl

/-- Groups at the start of a text. -/
theorem readGroups_subslice {limit : Nat} {rest : List Char} (hstop : Stops rest)
    (hdot : '.' ∉ rest) (groups : List UInt16) {room : Nat}
    (hroom : groups.length ≤ room) :
    readGroups limit room ((subslice groups).toList ++ rest) [] = (groups, false, rest) := by
  cases groups with
  | nil => exact readGroups_stop hstop limit room []
  | cons g more =>
    rw [List.length_cons] at hroom
    cases room with
    | zero => exact absurd hroom (Nat.not_succ_le_zero _)
    | succ room =>
      rw [toList_subslice, List.append_assoc,
        readGroups_group (hstop.noDigit_following more) (not_mem_following hdot) fun inner => rfl,
        List.nil_append, readGroups_following hstop hdot more [g] (by simp) (by omega)]
      rfl

theorem not_mem_subslice (groups : List UInt16) : '.' ∉ (subslice groups).toList := by
  cases groups with
  | nil =>
    show '.' ∉ ("" : String).toList
    simp
  | cons g more =>
    have hmore : '.' ∉ following more ++ [] := not_mem_following (by simp)
    rw [List.append_nil] at hmore
    rw [toList_subslice, List.mem_append]
    exact fun h => h.elim (not_mem_groupText g) hmore

/-! ## The run of zeros -/

/-- The segments of a range are zero. -/
def ZeroRange (segments : List UInt16) (start len : Nat) : Prop :=
  ∀ i, start ≤ i → i < start + len → segments[i]? = some 0

/-- What `zeroSpan` keeps after the first `k` segments: the longest run so far and the
run that goes on. -/
structure Spans (segments : List UInt16) (k : Nat) (state : (Nat × Nat) × (Nat × Nat)) :
    Prop where
  bound : state.1.1 + state.1.2 ≤ k
  longest : ZeroRange segments state.1.1 state.1.2
  current : state.2.2 ≠ 0 → state.2.1 + state.2.2 = k ∧ ZeroRange segments state.2.1 state.2.2

theorem spans_init (segments : List UInt16) : Spans segments 0 ((0, 0), (0, 0)) where
  bound := Nat.le_refl 0
  longest i _ h := absurd h (Nat.not_lt_zero i)
  current h := absurd rfl h

theorem ZeroRange.extend {segments : List UInt16} {start len : Nat}
    (h : ZeroRange segments start len) (hnext : segments[start + len]? = some 0) :
    ZeroRange segments start (len + 1) := by
  intro i hstart hend
  by_cases heq : i = start + len
  · rw [heq]
    exact hnext
  · exact h i hstart (by omega)

theorem zeroSpan_spans (segments : List UInt16) :
    ∃ current, Spans segments segments.length (zeroSpan segments, current) := by
  unfold zeroSpan
  extract_lets visit
  -- One segment, and then those that are left.
  have hvisit : ∀ k state segment, Spans segments k state → segments[k]? = some segment →
      Spans segments (k + 1) (visit state (segment, k)) := by
    intro k state segment h hsegment
    obtain ⟨⟨start, len⟩, ⟨start', len'⟩⟩ := state
    have hbound := h.bound
    have hcurrent := h.current
    simp only at hbound hcurrent
    by_cases hzero : segment = 0
    · subst hzero
      have hnew : (if len' = 0 then k else start') + (len' + 1) = k + 1 ∧
          ZeroRange segments (if len' = 0 then k else start') (len' + 1) := by
        by_cases hlen : len' = 0
        · subst hlen
          rw [if_pos rfl]
          refine ⟨rfl, ZeroRange.extend (fun i _ hi => absurd hi (by omega)) ?_⟩
          exact hsegment
        · obtain ⟨hend, hrange⟩ := hcurrent hlen
          rw [if_neg hlen]
          refine ⟨by omega, hrange.extend ?_⟩
          rw [hend]
          exact hsegment
      simp only [visit, if_true]
      by_cases hlonger : len < len' + 1
      · rw [if_pos hlonger]
        exact ⟨Nat.le_of_eq hnew.1, hnew.2, fun _ => hnew⟩
      · rw [if_neg hlonger]
        exact ⟨Nat.le_succ_of_le hbound, h.longest, fun _ => hnew⟩
    · simp only [visit, hzero, if_false]
      exact ⟨Nat.le_succ_of_le hbound, h.longest, fun h => absurd rfl h⟩
  have hfold : ∀ (rest : List UInt16) (k : Nat) state, segments.drop k = rest →
      Spans segments k state →
      Spans segments (k + rest.length) ((rest.zipIdx k).foldl visit state) := by
    intro rest
    induction rest with
    | nil => exact fun k state _ h => h
    | cons segment rest ih =>
      intro k state hdrop h
      have hsegment : segments[k]? = some segment := by
        rw [← List.head?_drop, hdrop]
        rfl
      have hrest : segments.drop (k + 1) = rest := by
        rw [← List.tail_drop, hdrop]
        rfl
      have hnext := ih (k + 1) _ hrest (hvisit k state segment h hsegment)
      rw [List.length_cons, List.zipIdx_cons, List.foldl_cons]
      rw [show k + (rest.length + 1) = k + 1 + rest.length by omega]
      exact hnext
  have hall := hfold segments 0 _ rfl (spans_init segments)
  rw [Nat.zero_add] at hall
  exact ⟨_, hall⟩

/-- The segments around the run of zeros. -/
theorem take_zeroSpan_drop (segments : List UInt16) :
    let (start, len) := zeroSpan segments
    start + len ≤ segments.length ∧
      segments.take start ++ List.replicate len 0 ++ segments.drop (start + len) = segments := by
  obtain ⟨current, h⟩ := zeroSpan_spans segments
  have hbound := h.bound
  have hrange := h.longest
  generalize zeroSpan segments = span at hbound hrange
  obtain ⟨start, len⟩ := span
  refine ⟨hbound, ?_⟩
  simp only at hbound hrange
  apply List.ext_getElem?
  intro i
  rcases Nat.lt_or_ge i start with hi | hi
  · rw [List.append_assoc, List.getElem?_append_left (by simp; omega), List.getElem?_take,
      if_pos hi]
  rcases Nat.lt_or_ge i (start + len) with hi' | hi'
  · rw [List.getElem?_append_left (by simp; omega), List.getElem?_append_right (by simp; omega),
      List.getElem?_replicate, hrange i hi hi', if_pos (by simp; omega)]
  · rw [List.getElem?_append_right (by simp; omega), List.getElem?_drop]
    congr 1
    simp
    omega

/-! ## IPv6 -/

theorem ofSegments_toList (segments : Vector UInt16 8) :
    ofSegments segments.toList = some segments := by
  unfold ofSegments
  rw [dif_pos (by simp)]
  rfl

theorem readIpv6_plain (segments : Vector UInt16 8) :
    readIpv6 (subslice segments.toList).toList = some (segments, []) := by
  have hlength : segments.toList.length = 8 := by simp
  have hread : readGroups 8 8 ((subslice segments.toList).toList ++ []) [] =
      (segments.toList, false, []) :=
    readGroups_subslice (.inl rfl) (by simp) segments.toList (Nat.le_of_eq hlength)
  rw [List.append_nil] at hread
  unfold readIpv6
  rw [hread]
  simp only
  rw [if_pos hlength, ofSegments_toList]
  rfl

theorem readIpv6_compressed (segments : Vector UInt16 8) {start len : Nat} (hlen : 1 < len)
    (hbound : start + len ≤ 8)
    (hsegments : segments.toList.take start ++ List.replicate len 0 ++
      segments.toList.drop (start + len) = segments.toList) :
    readIpv6 ((subslice (segments.toList.take start)).toList ++ ':' :: ':' ::
      (subslice (segments.toList.drop (start + len))).toList) = some (segments, []) := by
  have hlength : segments.toList.length = 8 := by simp
  have hfront : (segments.toList.take start).length = start := by
    rw [List.length_take, hlength]
    omega
  have hback : (segments.toList.drop (start + len)).length = 8 - (start + len) := by
    rw [List.length_drop, hlength]
  have hdot : '.' ∉ ':' :: ':' :: (subslice (segments.toList.drop (start + len))).toList := by
    simp [not_mem_subslice]
  have hreadBack : readGroups (7 - start) (7 - start)
      ((subslice (segments.toList.drop (start + len))).toList ++ []) [] =
      (segments.toList.drop (start + len), false, []) :=
    readGroups_subslice (.inl rfl) (by simp) _ (by omega)
  rw [List.append_nil] at hreadBack
  unfold readIpv6
  rw [readGroups_subslice (.inr ⟨_, rfl⟩) hdot (segments.toList.take start) (by omega)]
  simp only
  rw [hfront, if_neg (by omega), if_neg (by simp), hreadBack]
  simp only
  rw [hback, show 8 - start - (8 - (start + len)) = len by omega, hsegments, ofSegments_toList]
  rfl

/-- A segment is made of its two octets. -/
theorem segment_octets (s : UInt16) : segment (s / 256).toUInt8 s.toUInt8 = s := by
  have hlt : s.toNat < 65536 := s.toNat_lt
  have hdiv : s.toNat / 256 < 256 := by omega
  have hmod : s.toNat % 256 < 256 := Nat.mod_lt _ (by decide)
  apply UInt16.toNat_inj.mp
  show ((s.toNat / 256 % 256 * 256) % 65536 + s.toNat % 256) % 65536 = s.toNat
  rw [Nat.mod_eq_of_lt hdiv]
  omega

/-- After the prefix of a mapped address its octets are read as two groups. -/
theorem readGroups_octets (a b c d : UInt8) {limit room : Nat} {groups : List UInt16}
    (hgroups : 0 < groups.length) (hlimit : groups.length + 1 < limit) :
    readGroups limit (room + 1) (':' :: (octetsToString #v[a, b, c, d]).toList) groups =
      (groups ++ [segment a b, segment c d], true, []) := by
  have hread := readIpv4_octetsToString #v[a, b, c, d] (noDigit_nil 10)
  rw [List.append_nil] at hread
  unfold readGroups
  simp only
  rw [if_pos hlimit, readSeparator_cons hgroups, hread]
  rfl

theorem readIpv6_mapped (a b c d : UInt8) :
    readIpv6 ("::ffff:" ++ octetsToString #v[a, b, c, d]).toList =
      (ofSegments [0, 0, 0, 0, 0, 0xFFFF, segment a b, segment c d]).map
        fun segments => (segments, []) := by
  have htext : ("::ffff:" ++ octetsToString #v[a, b, c, d]).toList =
      ':' :: ':' :: (groupText 0xFFFF ++ ':' :: (octetsToString #v[a, b, c, d]).toList) := by
    rw [String.toList_append]
    rfl
  have hgroup : readGroup (groupText 0xFFFF ++ ':' :: (octetsToString #v[a, b, c, d]).toList) =
      some (0xFFFF, ':' :: (octetsToString #v[a, b, c, d]).toList) :=
    readGroup_groupText 0xFFFF (noDigit_cons (by decide) _)
  have hback : readGroups 7 7
      (groupText 0xFFFF ++ ':' :: (octetsToString #v[a, b, c, d]).toList) [] =
      ([0xFFFF, segment a b, segment c d], true, []) := by
    have hnone : readIpv4
        (groupText 0xFFFF ++ ':' :: (octetsToString #v[a, b, c, d]).toList) = none := rfl
    have hrest : readGroups 7 6 (':' :: (octetsToString #v[a, b, c, d]).toList) [0xFFFF] =
        ([0xFFFF, segment a b, segment c d], true, []) :=
      readGroups_octets a b c d (by decide) (by decide)
    unfold readGroups
    simp only [readSeparator, List.length_nil]
    rw [hnone, ite_self, hgroup]
    exact hrest
  rw [htext]
  unfold readIpv6
  rw [readGroups_stop (.inr ⟨_, rfl⟩)]
  simp only [List.length_nil]
  rw [if_neg (by decide), if_neg (by decide), hback]
  rfl

/-! ## Addresses -/

/-- An IPv4-mapped address is written with the octets of its last two segments. -/
theorem toText_mapped {segments : Vector UInt16 8}
    (h : segments.toList.take 6 = [0, 0, 0, 0, 0, 0xFFFF]) :
    ∃ s t, segments.toList = [0, 0, 0, 0, 0, 0xFFFF, s, t] ∧
      toText (.v6 segments) = "::ffff:" ++ octetsToString
        #v[(s / 256).toUInt8, s.toUInt8, (t / 256).toUInt8, t.toUInt8] := by
  refine ⟨segments[6], segments[7], ?_, ?_⟩
  · have hrest : segments.toList.drop 6 = [segments[6], segments[7]] := by
      rw [List.drop_eq_getElem_cons (by simp), List.drop_eq_getElem_cons (by simp)]
      simp
    rw [← List.take_append_drop 6 segments.toList, h, hrest]
    rfl
  · show segmentsToString segments = _
    unfold segmentsToString
    rw [if_pos h]

theorem readIpv6_toText (segments : Vector UInt16 8) :
    readIpv6 (toText (.v6 segments)).toList = some (segments, []) := by
  by_cases hmapped : segments.toList.take 6 = [0, 0, 0, 0, 0, 0xFFFF]
  · obtain ⟨s, t, hsegments, htext⟩ := toText_mapped hmapped
    rw [htext, readIpv6_mapped, segment_octets, segment_octets, ← hsegments, ofSegments_toList]
    rfl
  show readIpv6 (segmentsToString segments).toList = _
  unfold segmentsToString
  rw [if_neg hmapped]
  have hspan := take_zeroSpan_drop segments.toList
  generalize zeroSpan segments.toList = span at hspan
  obtain ⟨start, len⟩ := span
  obtain ⟨hbound, hsegments⟩ := hspan
  simp only
  by_cases hlen : 1 < len
  · rw [if_pos hlen, String.toList_append, String.toList_append, List.append_assoc]
    exact readIpv6_compressed segments hlen (by simpa using hbound) hsegments
  · rw [if_neg hlen]
    exact readIpv6_plain segments

/-- Only an IPv4-mapped address has dots in its text, and that one starts with a colon. -/
theorem readIpv4_toText_v6 (segments : Vector UInt16 8) :
    readIpv4 (toText (.v6 segments)).toList = none := by
  by_cases hmapped : segments.toList.take 6 = [0, 0, 0, 0, 0, 0xFFFF]
  · obtain ⟨s, t, -, htext⟩ := toText_mapped hmapped
    rw [htext, String.toList_append]
    exact readIpv4_colon _
  apply readIpv4_eq_none
  show '.' ∉ (segmentsToString segments).toList
  unfold segmentsToString
  rw [if_neg hmapped]
  simp only
  by_cases hlen : 1 < (zeroSpan segments.toList).2
  · rw [if_pos hlen, String.toList_append, String.toList_append]
    simp [not_mem_subslice]
  · rw [if_neg hlen]
    exact not_mem_subslice segments.toList

/-- An address is read back from its text. -/
theorem parse_toText (ip : IpAddr) : parse ip.toText = some ip := by
  unfold parse
  cases ip with
  | v4 octets =>
    have hread := readIpv4_octetsToString octets (noDigit_nil 10)
    rw [List.append_nil] at hread
    rw [show toText (.v4 octets) = octetsToString octets from rfl, hread]
    rfl
  | v6 segments =>
    rw [readIpv4_toText_v6, readIpv6_toText]
    rfl

end IpAddr

end AxumHealth
