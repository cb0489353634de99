import Twincam.Lib.Numeral
import Twincam.Lib.StdString

/-!
# Formatted output (`twncm_stdio.h`, `uptime.cpp`, `CameraSession::processRequest` in `camera_session.cpp`)

`STRING_PRINTF` appends formatted text to a `std::string`.  It resizes the string to its capacity first, so that the
first `snprintf` has no room at all and only measures; the second one writes the text behind the old content, and its
NUL into the slot of the terminator.  `string_printf_appends` says that the text is appended and that no write leaves
the string, and what follows for the lines the program prints.
-/

namespace Twincam

open StdString (Appends Failure Growth appends_append appends_foldlM)

def INT_MAX : Nat := 2 ^ 31 - 1

/-- An `int` as a `size_t`. -/
def sizeOfInt (n : Int32) : UInt64 := n.toInt64.toUInt64

/-- `snprintf` with room for `n` bytes and the formatted `text`: its result, and the bytes it writes. -/
def snprintf (n : UInt64) (text : List UInt8) : Int32 × List UInt8 :=
  (if text.length ≤ INT_MAX then Int32.ofNat text.length else -1,
    if n = 0 then [] else text.take (n.toNat - 1) ++ [0])

/-- `STRING_PRINTF`. -/
def stringPrintf (g : Growth) (str : StdString) (text : List UInt8) : Except Failure StdString := do
  let write_point := UInt64.ofNat str.size
  let str ← str.resize g str.capacity
  let capacity_left := (UInt64.ofNat str.capacity - UInt64.ofNat str.size).toUInt32.toInt32
  let (sizesn, bytes) := snprintf (sizeOfInt capacity_left) text
  let str ← str.store write_point.toNat bytes
  let str ← str.resize g (write_point + sizeOfInt sizesn).toNat
  if sizesn < capacity_left then return str
  let (_, bytes) := snprintf (sizeOfInt (sizesn + 1)) text
  str.store write_point.toNat bytes

/-- The options that `HEAD` looks at. -/
structure Opts where
  uptime : Bool
  to_syslog : Bool

/-- `uptime_str`, with the formatted time. -/
def uptimeStr (g : Growth) (str : StdString) (uptimeText : List UInt8) : Except Failure StdString :=
  stringPrintf g str uptimeText

/-- The string after `HEAD`. -/
def head (g : Growth) (opts : Opts) (uptimeText : List UInt8) (str : StdString) (text : List UInt8) :
    Except Failure StdString := do
  let str ← if opts.uptime then uptimeStr g str uptimeText else pure str
  stringPrintf g str text

/-- `PRINT`: what goes to the standard output, and to the system log. -/
def print (g : Growth) (opts : Opts) (uptimeText text : List UInt8) :
    Except Failure (List UInt8 × List (List UInt8)) := do
  let str ← head g opts uptimeText StdString.empty text
  return (str.cStr, if opts.to_syslog then [str.cStr] else [])

/-- What the frame line says about a buffer: the name of its stream, and of its metadata the sequence number and the
bytes used by each plane. -/
structure BufferInfo where
  streamName : List UInt8
  sequence : UInt32
  bytesused : List UInt32

/-- `" seq: "`. -/
def seqText : List UInt8 := [32, 115, 101, 113, 58, 32]

/-- `" bytesused: "`. -/
def bytesusedText : List UInt8 := [32, 98, 121, 116, 101, 115, 117, 115, 101, 100, 58, 32]

/-- `std::to_string` of an `unsigned int`. -/
def stdToString (n : UInt32) : List UInt8 := Numeral.decimal n.toNat

/-- The loop over the `planes` planes of a buffer, from plane `nplane` on. -/
def appendPlanes (g : Growth) (planes : Nat) : Nat → List UInt32 → StdString → Except Failure StdString
  | _, [], frame_str => pure frame_str
  | nplane, bytesused :: rest, frame_str => do
    let frame_str ← frame_str.append g (stdToString bytesused)
    let frame_str ← if nplane + 1 < planes then frame_str.append g [47] else pure frame_str
    appendPlanes g planes (nplane + 1) rest frame_str

/-- The part of the frame line about one buffer. -/
def appendBuffer (g : Growth) (frame_str : StdString) (buf : BufferInfo) : Except Failure StdString := do
  let frame_str ← frame_str.append g ([32] ++ buf.streamName ++ seqText ++ stdToString buf.sequence ++ bytesusedText)
  appendPlanes g buf.bytesused.length 0 buf.bytesused frame_str

/-- The frame line of `CameraSession::processRequest`, with the formatted frame rate. -/
def frameLine (g : Growth) (fpsText : List UInt8) (buffers : List BufferInfo) : Except Failure StdString := do
  let frame_str ← stringPrintf g StdString.empty fpsText
  buffers.foldlM (appendBuffer g) frame_str

/-! ### The texts -/

/-- The numbers of bytes, with a slash between them. -/
def planesText : List UInt32 → List UInt8
  | [] => []
  | [bytesused] => stdToString bytesused
  | bytesused :: rest => stdToString bytesused ++ [47] ++ planesText rest

def bufferText (buf : BufferInfo) : List UInt8 :=
  [32] ++ buf.streamName ++ seqText ++ stdToString buf.sequence ++ bytesusedText ++ planesText buf.bytesused

/-! ### The two passes -/

/-- A length that `snprintf` can return keeps its value as an `int` and as a `size_t`. -/
private theorem sizeOfInt_ofNat {n : Nat} (h : n ≤ INT_MAX) : sizeOfInt (Int32.ofNat n) = UInt64.ofNat n := by
  have hmax : (n : Int) ≤ Int32.maxValue.toInt := Int.ofNat_le.2 h
  rw [sizeOfInt, Int32.toInt64_ofNat' hmax, Int64.toUInt64_ofNat']

private theorem toNat_ofNat_of_le {n : Nat} (h : n ≤ maxSize + INT_MAX) : (UInt64.ofNat n).toNat = n :=
  UInt64.toNat_ofNat_of_lt (h.trans_lt (by decide))

/-- A call without room measures the text. -/
private theorem snprintf_measure {text : List UInt8} (h : text.length < INT_MAX) :
    snprintf (sizeOfInt 0) text = (Int32.ofNat text.length, []) := by
  have hzero : sizeOfInt 0 = 0 := rfl
  rw [snprintf, if_pos h.le, if_pos hzero]

/-- A call with room for the text and the NUL writes both. -/
private theorem snprintf_write {text : List UInt8} (h : text.length < INT_MAX) :
    (snprintf (sizeOfInt (Int32.ofNat text.length + 1)) text).2 = text ++ [0] := by
  have hadd : Int32.ofNat text.length + 1 = Int32.ofNat (text.length + 1) := (Int32.ofNat_add _ _).symm
  have hroom : (UInt64.ofNat (text.length + 1)).toNat = text.length + 1 := toNat_ofNat_of_le (by omega)
  have hne : UInt64.ofNat (text.length + 1) ≠ 0 := by
    intro hzero
    rw [hzero] at hroom
    cases hroom
  rw [hadd, sizeOfInt_ofNat h]
  show (if UInt64.ofNat (text.length + 1) = 0 then [] else
    text.take ((UInt64.ofNat (text.length + 1)).toNat - 1) ++ [0]) = text ++ [0]
  rw [if_neg hne, hroom, Nat.add_sub_cancel, List.take_length]

/-- What the two passes come to: the string is cut off or filled up behind its old content to the length of the text,
and the text is written there with a NUL behind it. -/
private theorem stringPrintf_eq (g : Growth) (s : StdString) {text : List UInt8} (h : text.length < INT_MAX) :
    ∃ full : StdString, full.chars = s.chars ++ List.replicate (s.capacity - s.size) 0 ∧
      stringPrintf g s text =
        full.resize g (s.size + text.length) >>= fun str => str.store s.size (text ++ [0]) := by
  have hcap := s.capacity_le
  have hle : s.size ≤ s.capacity := s.size_le
  have hresized := StdString.length_resized s.chars s.capacity
  obtain ⟨full, hfull, hchars, hcapacity⟩ := s.replace_ok g (hresized.trans_le hcap)
  have hsize : full.size = s.capacity := by rw [StdString.size, hchars, hresized]
  have hleft : (UInt64.ofNat full.capacity - UInt64.ofNat full.size).toUInt32.toInt32 = 0 := by
    rw [hsize, hcapacity hresized.le, UInt64.sub_self]
    rfl
  have hpoint : (UInt64.ofNat s.size).toNat = s.size := toNat_ofNat_of_le (by omega)
  have hend : (UInt64.ofNat s.size + sizeOfInt (Int32.ofNat text.length)).toNat = s.size + text.length := by
    rw [sizeOfInt_ofNat h.le, ← UInt64.ofNat_add]
    exact toNat_ofNat_of_le (by omega)
  have hnot : ¬Int32.ofNat text.length < 0 := by
    have hpos := Int32.zero_le_ofNat_of_lt (h.trans (by decide : INT_MAX < 2 ^ 31))
    exact fun hlt => absurd hlt (Int32.not_lt.2 hpos)
  refine ⟨full, ?_, ?_⟩
  · rw [hchars, List.take_of_length_le hle]
    rfl
  · have hfirst : s.resize g s.capacity = .ok full := hfull
    have hstore : full.store s.size [] = .ok full := StdString.store_nil (by omega)
    simp only [stringPrintf, hfirst, bind, Except.bind, hleft, snprintf_measure h, hpoint, hstore, hend]
    cases full.resize g (s.size + text.length) with
    | error e => rfl
    | ok str => simp only [if_neg hnot, snprintf_write h]

/-- One `STRING_PRINTF`. -/
private theorem appends_stringPrintf (g : Growth) (s : StdString) {text : List UInt8} (h : text.length < INT_MAX) :
    Appends (stringPrintf g s text) s text := by
  obtain ⟨full, hfull, heq⟩ := stringPrintf_eq g s h
  have hlen := StdString.length_resized full.chars (s.size + text.length)
  unfold Appends
  rw [heq]
  by_cases hfits : s.size + text.length ≤ maxSize
  · rw [if_pos hfits]
    obtain ⟨str, hstr, hchars, -⟩ := full.replace_ok g (hlen.trans_le hfits)
    have hresize : full.resize g (s.size + text.length) = .ok str := hstr
    -- the resized string keeps the old content
    have hkept : str.chars = s.chars ++ str.chars.drop s.size := by
      have hprefix : str.chars.take s.size = s.chars := by
        rw [hchars, hfull, List.take_append_of_le_length, List.take_take, Nat.min_eq_left (by omega),
          List.take_append_of_le_length (by rfl), List.take_of_length_le (by rfl)]
        rw [List.length_take, List.length_append]
        show s.size ≤ min (s.size + text.length) (s.size + _)
        omega
      conv_lhs => rw [← List.take_append_drop s.size str.chars, hprefix]
    have hfill : (str.chars.drop s.size).length = text.length := by
      rw [List.length_drop, hchars, hlen]
      omega
    rw [hresize]
    exact StdString.store_terminated hkept hfill
  · rw [if_neg hfits]
    have hresize : full.resize g (s.size + text.length) = .error .lengthError :=
      full.replace_error g (hlen.symm ▸ Nat.lt_of_not_le hfits)
    rw [hresize]
    rfl

/-! ### Lines -/

private theorem appends_head (g : Growth) (opts : Opts) (s : StdString) {uptimeText text : List UInt8}
    (hu : uptimeText.length < INT_MAX) (h : text.length < INT_MAX) :
    Appends (head g opts uptimeText s text) s ((if opts.uptime then uptimeText else []) ++ text) := by
  unfold head
  cases opts.uptime with
  | false => exact (StdString.appends_pure s).bind fun t _ => appends_stringPrintf g t h
  | true => exact (appends_stringPrintf g s hu).bind fun t _ => appends_stringPrintf g t h

private theorem appends_appendPlanes (g : Growth) {planes nplane : Nat} {rest : List UInt32}
    (h : planes = nplane + rest.length) (s : StdString) :
    Appends (appendPlanes g planes nplane rest s) s (planesText rest) := by
  induction rest generalizing nplane s with
  | nil => exact StdString.appends_pure s
  | cons bytesused rest ih =>
    cases rest with
    | nil =>
      have hlast : ¬nplane + 1 < planes := by
        rw [h]
        simp
      have hstep : Appends (appendPlanes g planes nplane [bytesused] s) s (stdToString bytesused ++ []) := by
        rw [appendPlanes]
        refine (appends_append g s _).bind fun t _ => ?_
        rw [if_neg hlast]
        exact StdString.appends_pure t
      rwa [List.append_nil] at hstep
    | cons next rest =>
      have hmore : nplane + 1 < planes := by
        rw [h]
        simp
      have hnext : planes = nplane + 1 + (next :: rest).length := by
        rw [h]
        simp only [List.length_cons]
        omega
      have htext : planesText (bytesused :: next :: rest) =
          stdToString bytesused ++ ([47] ++ planesText (next :: rest)) :=
        List.append_assoc _ _ _
      rw [appendPlanes, htext]
      refine (appends_append g s _).bind fun t _ => ?_
      rw [if_pos hmore]
      exact (appends_append g t _).bind fun u _ => ih hnext u

private theorem appends_appendBuffer (g : Growth) (s : StdString) (buf : BufferInfo) :
    Appends (appendBuffer g s buf) s (bufferText buf) := by
  have hplanes : ∀ t, Appends (appendPlanes g buf.bytesused.length 0 buf.bytesused t) t (planesText buf.bytesused) :=
    appends_appendPlanes g (Nat.zero_add _).symm
  exact (appends_append g s _).bind fun t _ => hplanes t

/-- For every string, every capacity it may have and every formatted text shorter than `INT_MAX`: one `STRING_PRINTF`,
and any sequence of them, appends exactly the text, without a write outside of the string, unless a string cannot have
that many characters.  So `HEAD` appends the time, if it is asked for, and the message, and the frame line is made of
the frame rate and the text of every buffer. -/
theorem string_printf_appends (g : Growth) (s : StdString) :
    (∀ text : List UInt8, text.length < INT_MAX → Appends (stringPrintf g s text) s text) ∧
      (∀ texts : List (List UInt8), (∀ text ∈ texts, text.length < INT_MAX) →
        Appends (texts.foldlM (stringPrintf g) s) s texts.flatten) ∧
      (∀ (opts : Opts) (uptimeText text : List UInt8), uptimeText.length < INT_MAX → text.length < INT_MAX →
        Appends (head g opts uptimeText s text) s ((if opts.uptime then uptimeText else []) ++ text)) ∧
      ∀ (fpsText : List UInt8) (buffers : List BufferInfo), fpsText.length < INT_MAX →
        Appends (frameLine g fpsText buffers) StdString.empty (fpsText ++ buffers.flatMap bufferText) := by
  refine ⟨fun text => appends_stringPrintf g s, ?_, fun opts _ _ => appends_head g opts s, ?_⟩
  · intro texts h
    rw [← List.flatMap_id]
    exact appends_foldlM id (fun text htext t => appends_stringPrintf g t (h text htext)) s
  · intro fpsText buffers h
    refine (appends_stringPrintf g StdString.empty h).bind fun t _ => ?_
    exact appends_foldlM bufferText (fun buf _ u => appends_appendBuffer g u buf) t

/-- A string of three characters in a buffer for four, and a text that does not fit into the buffer. -/
theorem string_printf_appends_one :
    ∃ t, stringPrintf .doubling ⟨[97, 98, 99], 4, by decide, by decide⟩ [120, 121, 122] = .ok t ∧
      t.chars = [97, 98, 99, 120, 121, 122] := by
  have h := (string_printf_appends .doubling ⟨[97, 98, 99], 4, by decide, by decide⟩).1 [120, 121, 122] (by decide)
  rwa [Appends, if_pos (by decide)] at h

/-- `PRINT` writes the time, if it is asked for, and the message to the standard output. -/
theorem print_output (g : Growth) (opts : Opts) {uptimeText text : List UInt8} (hu : uptimeText.length < INT_MAX)
    (h : text.length < INT_MAX) (hzero : 0 ∉ (if opts.uptime then uptimeText else []) ++ text) :
    (print g opts uptimeText text).map Prod.fst = .ok ((if opts.uptime then uptimeText else []) ++ text) := by
  have happ := appends_head g opts StdString.empty hu h
  have hlen : ((if opts.uptime then uptimeText else []) ++ text).length ≤ uptimeText.length + text.length := by
    rw [List.length_append]
    split <;> simp
  have hfits : StdString.empty.size + ((if opts.uptime then uptimeText else []) ++ text).length ≤ maxSize := by
    have hmax : 2 * INT_MAX ≤ maxSize := by decide
    show 0 + _ ≤ _
    omega
  rw [Appends, if_pos hfits] at happ
  obtain ⟨t, ht, hchars⟩ := happ
  have htext : t.chars = (if opts.uptime then uptimeText else []) ++ text := hchars
  have hout : t.cStr = (if opts.uptime then uptimeText else []) ++ text := by
    rw [StdString.cStr_eq (htext ▸ hzero), htext]
  rw [print, ht]
  exact congrArg Except.ok hout

end Twincam
