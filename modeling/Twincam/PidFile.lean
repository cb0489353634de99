import Twincam.Lib.Numeral
import Mathlib.Data.List.TakeWhile

/-!
# The pid file (`twncm_fnctl.cpp`, `twncm_stdlib.h`, `processArgs` in `twincam.cpp`)

`twincam -k` and `twincam -n` read a pid from `/var/run/twincam.pid` and send it a signal.  Neither the descriptor nor
the number of bytes read is looked at, and nothing ends the numeral in the buffer, so what is parsed goes on into the
bytes that were on the stack before.  `signal_recorded_iff` says when only the recorded process is signalled all the
same, and `pid_round_trip_iff` when what `pid_write` wrote is what is read back.
-/

namespace Twincam

open Numeral

/-- The pid file as the kernel answers about it: the descriptor that opening it yields, negative on failure, and the
bytes in it, if it can be read. -/
structure PidFile where
  fd : Int
  contents : Option (List UInt8)

/-- The local variable `char buf[16]` of `processArgs`. -/
structure PidBuf where
  bytes : List UInt8
  length_eq : bytes.length = 16

structure Kill where
  pid : Int
  sig : Int
deriving DecidableEq

def SIGUSR1 : Int := 10
def SIGTERM : Int := 15

/-- `data` stored at the beginning of the buffer. -/
def PidBuf.store (buf : PidBuf) (data : List UInt8) (h : data.length ≤ 16) : PidBuf where
  bytes := data ++ buf.bytes.drop data.length
  length_eq := by
    rw [List.length_append, List.length_drop, buf.length_eq]
    omega

def twncmOpenRead (file : PidFile) : Int := file.fd

/-- `pid_read`: the result of `read`, and the buffer after it. -/
def pidRead (file : PidFile) (fd : Int) (buf : PidBuf) : Int × PidBuf :=
  if fd < 0 then (-1, buf)
  else
    match file.contents with
    | none => (-1, buf)
    | some bytes =>
      ((bytes.take 15).length, buf.store (bytes.take 15) (by rw [List.length_take]; omega))

/-- `snprintf` of an `int` with the format `%d`. -/
def snprintfInt (n : Int) : List UInt8 := if n < 0 then 45 :: decimal (-n).toNat else decimal n.toNat

/-- `pid_write` in the process `pid`, to a file that was just truncated: its result, and the contents of the file.  The
kernel takes up to `room` bytes, or fails. -/
def pidWrite (pid : Int32) (room : Option Nat) : Int × List UInt8 :=
  let buf := snprintfInt pid.toInt
  match room with
  | none => (-1, [])
  | some n => ((buf.take n).length, buf.take n)

/-- `isspace` in the `"C"` locale. -/
def isSpace (b : UInt8) : Bool := b = 32 || (decide (9 ≤ b) && decide (b ≤ 13))

/-- A `long` has 64 bits; `strtol` goes no further than its bounds. -/
def clampLong (v : Int) : Int := max (-2 ^ 63) (min v (2 ^ 63 - 1))

/-- The number at the beginning of the bytes; `none` when they end before a byte that is no digit. -/
def scanDigits (bytes : List UInt8) : Option Nat :=
  let digits := bytes.takeWhile isDigit
  if digits.length = bytes.length then none else some (value digits)

/-- `strtol(buf, NULL, 10)` on an array that holds `bytes`; `none` when it reads past the end of the array. -/
def strtol (bytes : List UInt8) : Option Int :=
  match bytes.dropWhile isSpace with
  | [] => none
  | b :: rest =>
    if b = 45 then (scanDigits rest).map fun (n : Nat) => clampLong (-n)
    else if b = 43 then (scanDigits rest).map fun (n : Nat) => clampLong n
    else (scanDigits (b :: rest)).map fun (n : Nat) => clampLong n

/-- `twncm_atoi`; the conversion from `long` to `int` keeps the low 32 bits. -/
def twncmAtoi (bytes : List UInt8) : Option Int := (strtol bytes).map fun v => v.bmod (2 ^ 32)

/-- The body of a case of `processArgs` that signals: the value it returns and the calls of `kill`; `none` when it
reads past the end of its buffer, where anything can happen. -/
def signalCase (sig : Int) (file : PidFile) (buf : PidBuf) : Option (Int × List Kill) :=
  let fd := twncmOpenRead file
  let buf' := (pidRead file fd buf).2
  (twncmAtoi buf'.bytes).map fun pid => (1, [⟨pid, sig⟩])

/-- `case 'k'`. -/
def processArgsK : PidFile → PidBuf → Option (Int × List Kill) := signalCase SIGTERM

/-- `case 'n'`. -/
def processArgsN : PidFile → PidBuf → Option (Int × List Kill) := signalCase SIGUSR1

/-! ### Parsing -/

/-- After the digits `xs`, scanning goes on to the first byte that is no digit. -/
private theorem scanDigits_append {xs stale : List UInt8} (hxs : ∀ d ∈ xs, isDigit d = true) {n : Nat} :
    scanDigits (xs ++ stale) = some n ↔
      ∃ ds b rest, stale = ds ++ b :: rest ∧ (∀ d ∈ ds, isDigit d = true) ∧ isDigit b = false ∧
        value (xs ++ ds) = n := by
  have htake : (xs ++ stale).takeWhile isDigit = xs ++ stale.takeWhile isDigit := List.takeWhile_append_of_pos hxs
  have happ : stale.takeWhile isDigit ++ stale.dropWhile isDigit = stale := List.takeWhile_append_dropWhile
  unfold scanDigits
  rw [htake]
  constructor
  · intro h
    by_cases hlen : (xs ++ stale.takeWhile isDigit).length = (xs ++ stale).length
    · simp only [hlen, if_true, reduceCtorEq] at h
    · simp only [hlen, if_false, Option.some.injEq] at h
      cases hdrop : stale.dropWhile isDigit with
      | nil =>
        rw [hdrop, List.append_nil] at happ
        rw [happ] at hlen
        exact absurd rfl hlen
      | cons b rest =>
        have hb : isDigit b = false := by
          have hhead := List.head?_dropWhile_not isDigit stale
          rw [hdrop] at hhead
          simpa using hhead
        rw [hdrop] at happ
        exact ⟨_, b, rest, happ.symm, fun d hd => List.mem_takeWhile_imp hd, hb, h⟩
  · intro h
    obtain ⟨ds, b, rest, rfl, hds, hb, rfl⟩ := h
    rw [List.takeWhile_append_of_pos hds, List.takeWhile_cons_of_neg (by simp [hb]), List.append_nil]
    simp

private theorem strtol_of_isDigit {b : UInt8} {rest : List UInt8} (h : isDigit b = true) :
    strtol (b :: rest) = (scanDigits (b :: rest)).map fun (n : Nat) => clampLong n := by
  rw [isDigit_iff] at h
  have hspace : isSpace b = false := by
    simp [isSpace, UInt8.le_iff_toNat_le, ← UInt8.toNat_inj]
    omega
  have hminus : b ≠ 45 := by
    intro heq
    subst heq
    exact absurd h.1 (by decide)
  have hplus : b ≠ 43 := by
    intro heq
    subst heq
    exact absurd h.1 (by decide)
  unfold strtol
  rw [List.dropWhile_cons_of_neg (by simp [hspace])]
  simp only [hminus, hplus, if_false]

private theorem strtol_decimal (p : Nat) (stale : List UInt8) :
    strtol (decimal p ++ stale) = (scanDigits (decimal p ++ stale)).map fun (n : Nat) => clampLong n := by
  obtain ⟨b, rest, hp⟩ := List.exists_cons_of_ne_nil (decimal_ne_nil p)
  have hb : isDigit b = true := isDigit_of_mem_decimal (n := p) (by rw [hp]; exact List.mem_cons_self)
  rw [hp, List.cons_append]
  exact strtol_of_isDigit hb

/-- A positive `int` that a `long` was converted to from a natural number within its bounds. -/
private theorem bmod_clampLong {n p : Nat} (hp : 0 < p) :
    (clampLong n).bmod (2 ^ 32) = p ↔ p < 2 ^ 31 ∧ n < 2 ^ 63 ∧ n % 2 ^ 32 = p := by
  by_cases hn : n < 2 ^ 63
  · have hclamp : clampLong n = n := by
      unfold clampLong
      omega
    rw [hclamp, Int.bmod_def]
    omega
  · have hclamp : clampLong n = 2 ^ 63 - 1 := by
      unfold clampLong
      omega
    rw [hclamp, Int.bmod_def]
    omega

/-! ### The buffer after reading -/

/-- A numeral of at most fifteen digits ends up at the beginning of the buffer. -/
private theorem pidRead_bytes {file : PidFile} {buf : PidBuf} {bytes : List UInt8} (hfd : 0 ≤ file.fd)
    (hc : file.contents = some bytes) (hlen : bytes.length ≤ 15) :
    (pidRead file (twncmOpenRead file) buf).2.bytes = bytes ++ buf.bytes.drop bytes.length := by
  have htake : bytes.take 15 = bytes := List.take_of_length_le hlen
  unfold pidRead twncmOpenRead
  rw [if_neg (by omega), hc]
  simp only [PidBuf.store, htake]

/-! ### Only the recorded process -/

/-- The file is opened and read, and holds the decimal numeral of the positive number `p`. -/
def Records (file : PidFile) (p : Int) : Prop :=
  0 ≤ file.fd ∧ 0 < p ∧ file.contents = some (decimal p.toNat)

/-- The case stays inside its buffer and signals no process but the recorded one. -/
def SignalsOnlyRecorded (file : PidFile) (result : Option (Int × List Kill)) : Prop :=
  ∃ r, result = some r ∧ ∀ k ∈ r.2, Records file k.pid

/-- The numeral of `p` is readable in front of the bytes `stale`: digits may follow it, as long as a byte that is no
digit ends them and the longer number is below `2 ^ 63` and equal to `p` in its low 32 bits. -/
def Legible (p : Nat) (stale : List UInt8) : Prop :=
  ∃ ds b rest, stale = ds ++ b :: rest ∧ (∀ d ∈ ds, isDigit d = true) ∧ isDigit b = false ∧
    value (decimal p ++ ds) < 2 ^ 63 ∧ value (decimal p ++ ds) % 2 ^ 32 = p

/-- Where the byte after the numeral is no digit, it is legible. -/
theorem legible_of_not_isDigit {p : Nat} (hp : p < 2 ^ 31) {b : UInt8} (hb : isDigit b = false) (rest : List UInt8) :
    Legible p (b :: rest) := by
  refine ⟨[], b, rest, rfl, by simp, hb, ?_⟩
  rw [List.append_nil, value_decimal]
  omega

private theorem twncmAtoi_decimal {p : Nat} (hp : 0 < p) (stale : List UInt8) :
    twncmAtoi (decimal p ++ stale) = some (p : Int) ↔ p < 2 ^ 31 ∧ Legible p stale := by
  have hdigits : ∀ d ∈ decimal p, isDigit d = true := fun d hd => isDigit_of_mem_decimal hd
  unfold twncmAtoi
  rw [strtol_decimal]
  simp only [Option.map_map, Option.map_eq_some_iff, Function.comp_apply, bmod_clampLong hp]
  constructor
  · intro h
    obtain ⟨n, hscan, hlt, hn⟩ := h
    obtain ⟨ds, b, rest, hstale, hds, hb, rfl⟩ := (scanDigits_append hdigits).1 hscan
    exact ⟨hlt, ds, b, rest, hstale, hds, hb, hn⟩
  · intro h
    obtain ⟨hlt, ds, b, rest, hstale, hds, hb, hn⟩ := h
    exact ⟨_, (scanDigits_append hdigits).2 ⟨ds, b, rest, hstale, hds, hb, rfl⟩, hlt, hn⟩

private theorem twncmAtoi_lt {bytes : List UInt8} {v : Int} (h : twncmAtoi bytes = some v) : v < 2 ^ 31 := by
  obtain ⟨n, -, rfl⟩ := Option.map_eq_some_iff.1 h
  have hlt := Int.bmod_lt (x := n) (m := 2 ^ 32) (by omega)
  omega

private theorem signalsOnlyRecorded_signalCase (sig : Int) (file : PidFile) (buf : PidBuf) :
    SignalsOnlyRecorded file (signalCase sig file buf) ↔
      ∃ p, Records file p ∧ twncmAtoi (pidRead file (twncmOpenRead file) buf).2.bytes = some p := by
  unfold SignalsOnlyRecorded signalCase
  constructor
  · intro h
    obtain ⟨r, hr, hall⟩ := h
    obtain ⟨p, hp, rfl⟩ := Option.map_eq_some_iff.1 hr
    exact ⟨p, hall ⟨p, sig⟩ (by simp), hp⟩
  · intro h
    obtain ⟨p, hrec, hp⟩ := h
    simp only [hp]
    refine ⟨_, rfl, ?_⟩
    intro k hk
    rw [List.mem_singleton] at hk
    rw [hk]
    exact hrec

private theorem signalsOnlyRecorded_iff (sig : Int) (file : PidFile) (buf : PidBuf) :
    SignalsOnlyRecorded file (signalCase sig file buf) ↔
      0 ≤ file.fd ∧ ∃ p : Nat, 0 < p ∧ p < 2 ^ 31 ∧ file.contents = some (decimal p) ∧
        Legible p (buf.bytes.drop (decimal p).length) := by
  have hlen : ∀ p : Nat, p < 2 ^ 31 → (decimal p).length ≤ 15 := by
    intro p hp
    exact length_decimal_le (by omega) (by omega)
  rw [signalsOnlyRecorded_signalCase]
  constructor
  · intro h
    obtain ⟨v, ⟨hfd, hpos, hc⟩, hatoi⟩ := h
    have hlt := twncmAtoi_lt hatoi
    obtain ⟨p, rfl⟩ := Int.eq_ofNat_of_zero_le hpos.le
    rw [Int.toNat_natCast] at hc
    rw [pidRead_bytes hfd hc (hlen p (by omega)), twncmAtoi_decimal (by omega)] at hatoi
    exact ⟨hfd, p, by omega, hatoi.1, hc, hatoi.2⟩
  · intro h
    obtain ⟨hfd, p, hpos, hlt, hc, hleg⟩ := h
    refine ⟨p, ⟨hfd, by omega, by rw [Int.toNat_natCast]; exact hc⟩, ?_⟩
    rw [pidRead_bytes hfd hc (hlen p hlt), twncmAtoi_decimal hpos]
    exact ⟨hlt, hleg⟩

/-- `-k` and `-n` stay inside their buffer and signal no process but the recorded one if and only if the file can be
read and holds the numeral of a positive `int` that is legible in front of the rest of the buffer. -/
theorem signal_recorded_iff (file : PidFile) (buf : PidBuf) :
    (SignalsOnlyRecorded file (processArgsK file buf) ∧ SignalsOnlyRecorded file (processArgsN file buf)) ↔
      0 ≤ file.fd ∧ ∃ p : Nat, 0 < p ∧ p < 2 ^ 31 ∧ file.contents = some (decimal p) ∧
        Legible p (buf.bytes.drop (decimal p).length) := by
  unfold processArgsK processArgsN
  rw [signalsOnlyRecorded_iff, signalsOnlyRecorded_iff, and_self]

/-- Without a pid file, `-k` signals whatever the buffer spells: here every process there is. -/
theorem missing_file_signals_all :
    ∃ (file : PidFile) (buf : PidBuf),
      file.fd < 0 ∧ file.contents = none ∧ processArgsK file buf = some (1, [⟨-1, SIGTERM⟩]) ∧
      ¬SignalsOnlyRecorded file (processArgsK file buf) := by
  have hkill : processArgsK ⟨-1, none⟩ ⟨45 :: 49 :: List.replicate 14 0, rfl⟩ = some (1, [⟨-1, SIGTERM⟩]) := by decide
  refine ⟨⟨-1, none⟩, ⟨45 :: 49 :: List.replicate 14 0, rfl⟩, by decide, rfl, hkill, ?_⟩
  intro h
  obtain ⟨r, hr, hall⟩ := h
  rw [hkill, Option.some.injEq] at hr
  have hrec := hall ⟨-1, SIGTERM⟩ (by rw [← hr]; exact List.mem_singleton_self _)
  exact absurd hrec.1 (by decide)

/-! ### Writing and reading back -/

private theorem snprintfInt_of_pos {n : Int} (h : 0 < n) : snprintfInt n = decimal n.toNat := by
  unfold snprintfInt
  rw [if_neg (by omega)]

/-- A complete write leaves the numeral in the file. -/
private theorem pidWrite_complete {pid : Int32} {room : Option Nat}
    (h : (pidWrite pid room).1 = (snprintfInt pid.toInt).length) : (pidWrite pid room).2 = snprintfInt pid.toInt := by
  unfold pidWrite at h ⊢
  cases room with
  | none =>
    simp only at h
    omega
  | some n =>
    simp only [Nat.cast_inj, List.length_take] at h ⊢
    exact List.take_of_length_le (by omega)

/-- A pid that was written completely is read back if and only if its numeral is legible in front of what the buffer
held after it. -/
theorem pid_round_trip_iff {pid : Int32} (hpos : 0 < pid.toInt) {room : Option Nat}
    (hw : (pidWrite pid room).1 = (snprintfInt pid.toInt).length) {fd : Int} (hfd : 0 ≤ fd) (buf : PidBuf) :
    twncmAtoi (pidRead ⟨fd, some (pidWrite pid room).2⟩ fd buf).2.bytes = some pid.toInt ↔
      Legible pid.toInt.toNat (buf.bytes.drop (decimal pid.toInt.toNat).length) := by
  have hlt := Int32.toInt_lt pid
  have hcontents : (pidWrite pid room).2 = decimal pid.toInt.toNat := by
    rw [pidWrite_complete hw, snprintfInt_of_pos hpos]
  have hlen : (decimal pid.toInt.toNat).length ≤ 15 := length_decimal_le (by omega) (by omega)
  have hbytes : (pidRead ⟨fd, some (pidWrite pid room).2⟩ fd buf).2.bytes =
      decimal pid.toInt.toNat ++ buf.bytes.drop (decimal pid.toInt.toNat).length := by
    rw [hcontents]
    refine pidRead_bytes ?_ rfl hlen
    exact hfd
  have hcast : (pid.toInt.toNat : Int) = pid.toInt := Int.toNat_of_nonneg hpos.le
  have hiff := twncmAtoi_decimal (p := pid.toInt.toNat) (by omega) (buf.bytes.drop (decimal pid.toInt.toNat).length)
  rw [hcast] at hiff
  rw [hbytes, hiff]
  exact and_iff_right (by omega)

/-- The pid 42 and a buffer of zero bytes. -/
theorem pid_round_trip_iff_zeroed :
    twncmAtoi (pidRead ⟨3, some (pidWrite 42 (some 16)).2⟩ 3 ⟨List.replicate 16 0, rfl⟩).2.bytes =
        some (42 : Int32).toInt ↔
      Legible (42 : Int32).toInt.toNat ((List.replicate 16 0).drop (decimal (42 : Int32).toInt.toNat).length) := by
  have hw : (pidWrite 42 (some 16)).1 = (snprintfInt (42 : Int32).toInt).length := by decide
  exact pid_round_trip_iff (by decide) hw (by decide) ⟨List.replicate 16 0, rfl⟩

/-- The pid 42 is read back as 427 from a buffer that held a digit after its first two bytes. -/
theorem stale_digit_changes_pid :
    ∃ (pid : Int32) (room : Option Nat) (fd : Int) (buf : PidBuf), 0 < pid.toInt ∧
      (pidWrite pid room).1 = (snprintfInt pid.toInt).length ∧ 0 ≤ fd ∧
      twncmAtoi (pidRead ⟨fd, some (pidWrite pid room).2⟩ fd buf).2.bytes = some 427 ∧ pid.toInt ≠ 427 := by
  refine ⟨42, some 2, 3, ⟨[0, 0, 55] ++ List.replicate 13 0, rfl⟩, by decide, by decide, by decide, ?_, by decide⟩
  decide

end Twincam
