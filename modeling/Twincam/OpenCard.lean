import Twincam.Lib.CString

/-!
# Opening the first card (`openCard` in `drm.cpp`)

`openCard` goes over the entries of `/dev/dri` and opens the ones whose name starts with `card`.  It builds every path
in one array that has room for a card number of three digits, by copying the four bytes that follow `card` in the
entry, whatever the length of the name.

`readEntries_spec` says what happens for any listing: the cards are tried in order until one opens.  The paths are right
as long as the fourth of the bytes copied is the NUL at the latest, which is what `open_card_iff` says.
-/

namespace Twincam

namespace OpenCard

/-- `"/dev/dri/"`. -/
def devDri : List UInt8 := [47, 100, 101, 118, 47, 100, 114, 105, 47]

/-- `"card"`. -/
def card : List UInt8 := [99, 97, 114, 100]

def DIR_NAME_MAX : Nat := 9
def PRE_NODE_NAME_MAX : Nat := 4
def POST_NODE_NAME_MAX : Nat := 3
def NODE_NAME_MAX : Nat := DIR_NAME_MAX + PRE_NODE_NAME_MAX + POST_NODE_NAME_MAX

/-- A `struct dirent`: the array `d_name` holds the name of the entry, the NUL and any bytes behind it. -/
structure Dirent where
  d_name : List UInt8
  length_eq : d_name.length = 256
  terminated : 0 ∈ d_name

/-- The full name of an entry. -/
def Dirent.name (res : Dirent) : List UInt8 := (CString.ofBytes res.d_name).getD []

/-- The array `char name[NODE_NAME_MAX + 1]`. -/
structure NameBuf where
  bytes : List UInt8
  length_eq : bytes.length = NODE_NAME_MAX + 1

/-- `memcpy(name + start, src, src.length)`. -/
def NameBuf.memcpy (name : NameBuf) (start : Nat) (src : List UInt8) (h : start + src.length ≤ NODE_NAME_MAX + 1) :
    NameBuf where
  bytes := name.bytes.take start ++ src ++ name.bytes.drop (start + src.length)
  length_eq := by
    simp only [List.length_append, List.length_take, List.length_drop, name.length_eq]
    omega

/-- The array with its initial value. -/
def NameBuf.initial : NameBuf := ⟨devDri ++ List.replicate 8 0, rfl⟩

/-- The descriptor `openCard` returns, and the array at each call of `open`. -/
structure Result where
  fd : Int
  paths : List NameBuf

/-- The two bounds of the copies. -/
private theorem memcpy_post_le (res : Dirent) :
    DIR_NAME_MAX + PRE_NODE_NAME_MAX + ((res.d_name.drop PRE_NODE_NAME_MAX).take (POST_NODE_NAME_MAX + 1)).length ≤
      NODE_NAME_MAX + 1 := by
  simp only [List.length_take, List.length_drop, DIR_NAME_MAX, PRE_NODE_NAME_MAX, POST_NODE_NAME_MAX, NODE_NAME_MAX]
  omega

/-- The loop over the entries; `opens` are the results of the calls of `open` to come, `none` for a failure. -/
def readEntries (opens : Nat → Option Nat) (name : NameBuf) (fd : Int) : List Dirent → Result
  | [] => ⟨fd, []⟩
  | res :: rest =>
    if res.d_name.take PRE_NODE_NAME_MAX = card then
      let name := name.memcpy (DIR_NAME_MAX + PRE_NODE_NAME_MAX)
        ((res.d_name.drop PRE_NODE_NAME_MAX).take (POST_NODE_NAME_MAX + 1)) (memcpy_post_le res)
      match opens 0 with
      | some fd => ⟨fd, [name]⟩
      | none =>
        let result := readEntries (fun i => opens (i + 1)) name (-1) rest
        ⟨result.fd, name :: result.paths⟩
    else readEntries opens name fd rest

/-- `openCard`; `none` for the folder when `opendir` fails. -/
def openCard (folder : Option (List Dirent)) (opens : Nat → Option Nat) : Result :=
  match folder with
  | none => ⟨-1, []⟩
  | some entries =>
    readEntries opens (NameBuf.initial.memcpy DIR_NAME_MAX card (by decide)) (-1) entries

/-! ### The cards that are tried -/

/-- An entry whose name starts with `card`. -/
def Dirent.isCard (res : Dirent) : Bool := card.isPrefixOf res.name

/-- The entries up to the first that opens. -/
def upToFirst (opens : Nat → Option Nat) : List Dirent → List Dirent
  | [] => []
  | res :: rest => res :: if (opens 0).isSome then [] else upToFirst (fun i => opens (i + 1)) rest

/-- The cards of the listing, up to the first that opens. -/
def cardsTried (opens : Nat → Option Nat) (entries : List Dirent) : List Dirent :=
  upToFirst opens (entries.filter Dirent.isCard)

/-- The cards `tried` are the first ones of the listing: all of them when none opens, and those up to the first that
opens otherwise, whose descriptor is `fd`. -/
def Tries (opens : Nat → Option Nat) (cards tried : List Dirent) (fd : Int) : Prop :=
  (tried = cards ∧ (∀ i < cards.length, opens i = none) ∧ fd = -1) ∨
    ∃ n, ∃ opened : Nat, tried = cards.take (n + 1) ∧ n < cards.length ∧ (∀ i < n, opens i = none) ∧
      opens n = some opened ∧ fd = opened

/-- The path of an entry. -/
def Dirent.path (res : Dirent) : List UInt8 := devDri ++ res.name

/-- The search opens exactly the card nodes: the cards are tried in listing order until one opens, every path is a
string, that of its entry, and the result is the descriptor of the one that opened, or `-1`. -/
def OpensCards (opens : Nat → Option Nat) (entries : List Dirent) (result : Result) : Prop :=
  ∃ tried, Tries opens (entries.filter Dirent.isCard) tried result.fd ∧
    result.paths.map (fun name => CString.ofBytes name.bytes) = tried.map fun res => some res.path

/-! ### The loop -/

section Tries

variable {opens : Nat → Option Nat} {res : Dirent} {cards tried : List Dirent} {fd : Int}

private theorem tries_nil : Tries opens [] tried fd ↔ tried = [] ∧ fd = -1 := by
  constructor
  · rintro (⟨rfl, -, rfl⟩ | ⟨n, opened, -, hn, -⟩)
    · exact ⟨rfl, rfl⟩
    · cases hn
  · rintro ⟨rfl, rfl⟩
    exact Or.inl ⟨rfl, by simp, rfl⟩

private theorem tries_cons_some {opened : Nat} (h : opens 0 = some opened) :
    Tries opens (res :: cards) tried fd ↔ tried = [res] ∧ fd = opened := by
  constructor
  · rintro (⟨-, hfail, -⟩ | ⟨n, opened', htried, -, hfail, hopen, hfd⟩)
    · have hnone := hfail 0 (by simp)
      rw [h] at hnone
      cases hnone
    · cases n with
      | zero =>
        rw [h, Option.some.injEq] at hopen
        exact ⟨by simpa using htried, by rw [hfd, hopen]⟩
      | succ n =>
        have hnone := hfail 0 (by omega)
        rw [h] at hnone
        cases hnone
  · rintro ⟨rfl, rfl⟩
    exact Or.inr ⟨0, opened, by simp, by simp, by simp, h, rfl⟩

private theorem tries_cons_none (h : opens 0 = none) :
    Tries opens (res :: cards) tried fd ↔
      ∃ rest, tried = res :: rest ∧ Tries (fun i => opens (i + 1)) cards rest fd := by
  constructor
  · rintro (⟨rfl, hfail, hfd⟩ | ⟨n, opened, htried, hn, hfail, hopen, hfd⟩)
    · exact ⟨cards, rfl, Or.inl ⟨rfl, fun i hi => hfail (i + 1) (by simpa using hi), hfd⟩⟩
    · cases n with
      | zero =>
        rw [h] at hopen
        cases hopen
      | succ n =>
        refine ⟨cards.take (n + 1), by simpa using htried, Or.inr ⟨n, opened, rfl, ?_, ?_, hopen, hfd⟩⟩
        · simpa using hn
        · exact fun i hi => hfail (i + 1) (by omega)
  · rintro ⟨rest, rfl, hrest⟩
    rcases hrest with ⟨rfl, hfail, hfd⟩ | ⟨n, opened, rfl, hn, hfail, hopen, hfd⟩
    · refine Or.inl ⟨rfl, fun i hi => ?_, hfd⟩
      cases i with
      | zero => exact h
      | succ i => exact hfail i (by simpa using hi)
    · refine Or.inr ⟨n + 1, opened, by simp, by simpa using hn, fun i hi => ?_, hopen, hfd⟩
      cases i with
      | zero => exact h
      | succ i => exact hfail i (by omega)

/-- Which cards are tried is determined by the results of the calls of `open`. -/
private theorem Tries.eq_upToFirst (h : Tries opens cards tried fd) : tried = upToFirst opens cards := by
  induction cards generalizing opens tried with
  | nil => exact (tries_nil.1 h).1
  | cons res cards ih =>
    cases hopen : opens 0 with
    | none =>
      obtain ⟨rest, rfl, hrest⟩ := (tries_cons_none hopen).1 h
      rw [upToFirst, hopen, ih hrest]
      rfl
    | some opened =>
      rw [((tries_cons_some hopen).1 h).1, upToFirst, hopen]
      rfl

end Tries

private theorem Dirent.ofBytes_d_name (res : Dirent) : CString.ofBytes res.d_name = some res.name := by
  unfold Dirent.name
  cases h : CString.ofBytes res.d_name with
  | none => exact absurd res.terminated (CString.ofBytes_eq_none_iff.1 h)
  | some text => rfl

/-- The test of the loop looks at the name of the entry, also when it is shorter. -/
private theorem Dirent.take_eq_card_iff (res : Dirent) : res.d_name.take PRE_NODE_NAME_MAX = card ↔ res.isCard =
    true := by
  obtain ⟨hzero, rest, heq⟩ := CString.eq_of_ofBytes res.ofBytes_d_name
  have hlen : card.length = PRE_NODE_NAME_MAX := rfl
  rw [Dirent.isCard, List.isPrefixOf_iff_prefix, List.prefix_iff_eq_take, hlen, heq, @eq_comm _ card]
  by_cases hle : PRE_NODE_NAME_MAX ≤ res.name.length
  · rw [List.take_append_of_le_length hle]
  · have hshort : res.name.take PRE_NODE_NAME_MAX ≠ card := by
      intro h
      have hcount := congrArg List.length h
      rw [List.length_take, hlen] at hcount
      omega
    have hnul : (res.name ++ 0 :: rest).take PRE_NODE_NAME_MAX ≠ card := by
      intro h
      have hmem : (0 : UInt8) ∈ (res.name ++ 0 :: rest).take PRE_NODE_NAME_MAX := by
        rw [List.take_append]
        obtain ⟨k, hk⟩ : ∃ k, PRE_NODE_NAME_MAX - res.name.length = k + 1 := ⟨_, (Nat.succ_pred (by omega)).symm⟩
        simp [hk]
      rw [h] at hmem
      exact absurd hmem (by decide)
    exact iff_of_false hnul hshort

/-- What the array holds after the copies for a card: a path if no more than three bytes follow `card`. -/
private theorem ofBytes_memcpy {name : NameBuf}
    (hname : name.bytes.take (DIR_NAME_MAX + PRE_NODE_NAME_MAX) = devDri ++ card)
    {res : Dirent} (hcard : res.isCard = true) :
    CString.ofBytes (name.memcpy (DIR_NAME_MAX + PRE_NODE_NAME_MAX)
        ((res.d_name.drop PRE_NODE_NAME_MAX).take (POST_NODE_NAME_MAX + 1)) (memcpy_post_le res)).bytes =
      if res.name.length ≤ PRE_NODE_NAME_MAX + POST_NODE_NAME_MAX then some res.path else none := by
  obtain ⟨hzero, rest, heq⟩ := CString.eq_of_ofBytes res.ofBytes_d_name
  obtain ⟨post, hpost⟩ := List.isPrefixOf_iff_prefix.1 hcard
  have hdrop : res.d_name.drop PRE_NODE_NAME_MAX = post ++ 0 :: rest := by
    rw [heq, ← hpost, List.append_assoc]
    rfl
  have hpostzero : 0 ∉ post := fun h => hzero (by rw [← hpost]; simp [h])
  have hlen : name.bytes.drop (DIR_NAME_MAX + PRE_NODE_NAME_MAX +
      ((post ++ 0 :: rest).take (POST_NODE_NAME_MAX + 1)).length) = [] := by
    have hall : (post ++ 0 :: rest).length = 252 := by
      rw [← hdrop, List.length_drop, res.length_eq]
      rfl
    rw [List.length_take, hall, List.drop_eq_nil_iff, name.length_eq]
    decide
  simp only [NameBuf.memcpy, hname, hdrop]
  rw [hlen, List.append_nil, CString.ofBytes_append (by decide),
    CString.ofBytes_take (CString.ofBytes_terminated hpostzero rest), Dirent.path, ← hpost]
  have hiff : post.length < POST_NODE_NAME_MAX + 1 ↔
      (card ++ post).length ≤ PRE_NODE_NAME_MAX + POST_NODE_NAME_MAX := by
    rw [List.length_append]
    show post.length < 3 + 1 ↔ 4 + post.length ≤ 4 + 3
    omega
  by_cases hlt : post.length < POST_NODE_NAME_MAX + 1
  · rw [if_pos hlt, if_pos (hiff.1 hlt), Option.map_some, List.append_assoc]
  · rw [if_neg hlt, if_neg fun h => hlt (hiff.2 h), Option.map_none]

private theorem take_memcpy (name : NameBuf) (start : Nat) (src : List UInt8)
    (h : start + src.length ≤ NODE_NAME_MAX + 1) :
    (name.memcpy start src h).bytes.take start = name.bytes.take start := by
  have hlen : (name.bytes.take start).length = start := by
    rw [List.length_take, name.length_eq]
    omega
  show (name.bytes.take start ++ src ++ name.bytes.drop (start + src.length)).take start = name.bytes.take start
  rw [List.append_assoc, List.take_append_of_le_length (by omega), List.take_take, Nat.min_self]

/-- The cards are tried in order until one opens, and each path is that of its card or not a string at all. -/
private theorem readEntries_spec (opens : Nat → Option Nat) {name : NameBuf} (entries : List Dirent)
    (hname : name.bytes.take (DIR_NAME_MAX + PRE_NODE_NAME_MAX) = devDri ++ card) :
    Tries opens (entries.filter Dirent.isCard) (cardsTried opens entries) (readEntries opens name (-1) entries).fd ∧
      (readEntries opens name (-1) entries).paths.map (fun name => CString.ofBytes name.bytes) =
        (cardsTried opens entries).map fun res =>
          if res.name.length ≤ PRE_NODE_NAME_MAX + POST_NODE_NAME_MAX then some res.path else none := by
  unfold cardsTried
  induction entries generalizing opens name with
  | nil => exact ⟨tries_nil.2 ⟨rfl, rfl⟩, rfl⟩
  | cons res rest ih =>
    rw [readEntries]
    by_cases hcard : res.isCard = true
    · rw [if_pos (res.take_eq_card_iff.2 hcard), List.filter_cons_of_pos hcard, upToFirst]
      have hpath := ofBytes_memcpy hname hcard
      cases hopen : opens 0 with
      | some fd => exact ⟨(tries_cons_some hopen).2 ⟨rfl, rfl⟩, by simp [hpath]⟩
      | none =>
        obtain ⟨htries, hpaths⟩ := ih (fun i => opens (i + 1)) ((take_memcpy _ _ _ _).trans hname)
        refine ⟨(tries_cons_none hopen).2 ⟨_, rfl, htries⟩, ?_⟩
        simp only [List.map_cons, hpath, hpaths]
        rfl
    · rw [if_neg fun h => hcard (res.take_eq_card_iff.1 h), List.filter_cons_of_neg hcard]
      exact ih opens hname

/-- For any listing and any results of the calls of `open`, the search opens exactly the card nodes if and only if no
card that it tries has more than three characters behind `card`. -/
theorem open_card_iff (entries : List Dirent) (opens : Nat → Option Nat) :
    OpensCards opens entries (openCard (some entries) opens) ↔
      ∀ res ∈ cardsTried opens entries, res.name.length ≤ PRE_NODE_NAME_MAX + POST_NODE_NAME_MAX := by
  have hname : (NameBuf.initial.memcpy DIR_NAME_MAX card (by decide)).bytes.take (DIR_NAME_MAX + PRE_NODE_NAME_MAX) =
      devDri ++ card := rfl
  obtain ⟨htries, hpaths⟩ := readEntries_spec opens entries hname
  unfold OpensCards openCard
  rw [hpaths]
  constructor
  · rintro ⟨tried, htried, heq⟩ res hres
    rw [htried.eq_upToFirst] at heq
    have hres' := List.map_inj_left.1 heq res hres
    by_contra hlong
    rw [if_neg hlong] at hres'
    cases hres'
  · intro hshort
    refine ⟨cardsTried opens entries, htries, ?_⟩
    exact List.map_congr_left fun res hres => if_pos (hshort res hres)

/-- The entry with this name, and NULs behind it. -/
def Dirent.ofName (name : List UInt8) (h : name.length < 256) : Dirent where
  d_name := name ++ List.replicate (256 - name.length) 0
  length_eq := by simp; omega
  terminated := by simp; omega

/-- A directory with the node `card1234`: `open` gets an array without a NUL. -/
theorem long_number_unterminated :
    (openCard (some [.ofName [99, 97, 114, 100, 49, 50, 51, 52] (by decide)]) fun _ => some 3).paths.map
        (fun name => CString.ofBytes name.bytes) = [none] ∧
      ¬OpensCards (fun _ => some 3) [.ofName [99, 97, 114, 100, 49, 50, 51, 52] (by decide)]
        (openCard (some [.ofName [99, 97, 114, 100, 49, 50, 51, 52] (by decide)]) fun _ => some 3) := by
  have hpaths : (openCard (some [.ofName [99, 97, 114, 100, 49, 50, 51, 52] (by decide)]) fun _ => some 3).paths.map
      (fun name => CString.ofBytes name.bytes) = [none] := by decide
  refine ⟨hpaths, ?_⟩
  rintro ⟨tried, -, heq⟩
  rw [hpaths] at heq
  cases tried with
  | nil => cases heq
  | cons res rest => cases (List.cons.inj heq).1

end OpenCard

end Twincam
