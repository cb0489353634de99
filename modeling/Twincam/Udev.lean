import Twincam.Errno
import Mathlib.Data.List.Basic
import Mathlib.Tactic.Common

/-!
# Waiting for udev (`wait_for_udev` in `twincam.cpp`)

`wait_for_udev` lists the initialised devices of a subsystem and looks for one that can be used.  A single variable
holds the result of the last call of libudev and the result of the search, so that a search without a match returns
what the scan returned; `wait_for_udev_iff` says when the result is right all the same.
-/

namespace Twincam

/-- A device that was looked up: its device node and its subsystem, where it has them. -/
structure UdevDevice where
  devnode : Option String
  subsystem : Option String

/-- The answers of libudev.  The scan yields a list of entries, each with the device that the lookup of its path
gives, if it succeeds. -/
structure UdevCalls where
  udevNew : Bool
  enumerateNew : Bool
  addMatchSubsystem : Int
  addMatchIsInitialized : Int
  scanDevices : Int
  entries : List (Option UdevDevice)

def checkUdevDevice (dev : UdevDevice) (subsys : String) : Int :=
  match dev.subsystem with
  | none => -ENODEV
  | some subsystem => if subsystem = subsys then 0 else -ENODEV

/-- The loop of `wait_for_udev`; `ret` is the variable of this name. -/
def searchEntries (subsys : String) (ret : Int) : List (Option UdevDevice) → Int
  | [] => ret
  | none :: ents => searchEntries subsys ret ents
  | some dev :: ents =>
    if dev.devnode.isNone then searchEntries subsys ret ents
    else if checkUdevDevice dev subsys < 0 then searchEntries subsys ret ents
    else 0

def waitForUdev (calls : UdevCalls) (subsys : String) : Int :=
  if !calls.udevNew then -ENODEV
  else if !calls.enumerateNew then -ENOMEM
  else if calls.addMatchSubsystem < 0 then calls.addMatchSubsystem
  else if calls.addMatchIsInitialized < 0 then calls.addMatchIsInitialized
  else if calls.scanDevices < 0 then calls.scanDevices
  else if calls.entries.isEmpty then -1
  else searchEntries subsys calls.scanDevices calls.entries

/-- The wait of `CamApp::init` for a subsystem: it asks again until `wait_for_udev` returns 0 or the attempts, 400 in
the program, are used up. -/
def waitAttempts (subsys : String) : List UdevCalls → Int
  | [] => -1
  | calls :: attempts => if waitForUdev calls subsys = 0 then 0 else waitAttempts subsys attempts

/-- The entry resolves to a device with a device node, and the device is of the subsystem. -/
def IsMatch (subsys : String) (ent : Option UdevDevice) : Prop :=
  ∃ dev, ent = some dev ∧ dev.devnode.isSome ∧ dev.subsystem = some subsys

private theorem checkUdevDevice_nonneg {dev : UdevDevice} {subsys : String} :
    ¬checkUdevDevice dev subsys < 0 ↔ dev.subsystem = some subsys := by
  unfold checkUdevDevice
  cases hsub : dev.subsystem with
  | none => simp [ENODEV]
  | some subsystem =>
    by_cases heq : subsystem = subsys
    · simp [heq]
    · simp [heq, ENODEV]

/-- An entry without a match is skipped, whichever of the three `continue` statements it reaches. -/
private theorem Udev.searchEntries_skip {subsys : String} {ent : Option UdevDevice} (h : ¬IsMatch subsys ent)
    (ret : Int)
    (ents : List (Option UdevDevice)) : searchEntries subsys ret (ent :: ents) = searchEntries subsys ret ents := by
  cases ent with
  | none => rw [searchEntries]
  | some dev =>
    by_cases hnode : dev.devnode.isNone = true
    · rw [searchEntries, if_pos hnode]
    · have hneg : checkUdevDevice dev subsys < 0 := by
        by_contra hsub
        have hsome : dev.devnode.isSome = true := by
          rw [← Option.not_isNone]
          simpa only [Bool.not_eq_true', Bool.not_eq_true] using hnode
        exact h ⟨dev, rfl, hsome, checkUdevDevice_nonneg.1 hsub⟩
      rw [searchEntries, if_neg hnode, if_pos hneg]

private theorem Udev.searchEntries_match {subsys : String} {ent : Option UdevDevice} (h : IsMatch subsys ent)
    (ret : Int) (ents : List (Option UdevDevice)) : searchEntries subsys ret (ent :: ents) = 0 := by
  obtain ⟨dev, rfl, hnode, hsub⟩ := h
  have hnone : ¬dev.devnode.isNone = true := by
    rw [Option.isNone_iff_eq_none]
    rintro heq
    rw [heq] at hnode
    cases hnode
  rw [searchEntries, if_neg hnone, if_neg (checkUdevDevice_nonneg.2 hsub)]

/-- With a match in the list the search ends with 0. -/
private theorem searchEntries_of_match {subsys : String} {ents : List (Option UdevDevice)}
    (h : ∃ ent ∈ ents, IsMatch subsys ent) (ret : Int) : searchEntries subsys ret ents = 0 := by
  induction ents with
  | nil =>
    obtain ⟨ent, hmem, -⟩ := h
    cases hmem
  | cons ent ents ih =>
    by_cases hmatch : IsMatch subsys ent
    · exact Udev.searchEntries_match hmatch ret ents
    · have hrest : ∃ e ∈ ents, IsMatch subsys e := by
        obtain ⟨e, hmem, he⟩ := h
        rcases List.mem_cons.1 hmem with rfl | hmem
        · exact absurd he hmatch
        · exact ⟨e, hmem, he⟩
      rw [Udev.searchEntries_skip hmatch, ih hrest]

/-- Without one it ends with what `ret` was before it. -/
private theorem searchEntries_of_no_match {subsys : String} {ents : List (Option UdevDevice)}
    (h : ∀ ent ∈ ents, ¬IsMatch subsys ent) (ret : Int) : searchEntries subsys ret ents = ret := by
  induction ents with
  | nil => rfl
  | cons ent ents ih =>
    rw [Udev.searchEntries_skip (h ent List.mem_cons_self), ih fun e he => h e (List.mem_cons_of_mem _ he)]

/-- The calls up to the scan succeed. -/
def UdevCalls.Scanned (calls : UdevCalls) : Prop :=
  calls.udevNew = true ∧ calls.enumerateNew = true ∧ 0 ≤ calls.addMatchSubsystem ∧
    0 ≤ calls.addMatchIsInitialized ∧ 0 ≤ calls.scanDevices

private theorem waitForUdev_eq {calls : UdevCalls} (h : calls.Scanned) (subsys : String) :
    waitForUdev calls subsys =
      if calls.entries.isEmpty then -1 else searchEntries subsys calls.scanDevices calls.entries := by
  obtain ⟨hnew, henum, hsub, hinit, hscan⟩ := h
  have hsub' : ¬calls.addMatchSubsystem < 0 := by omega
  have hinit' : ¬calls.addMatchIsInitialized < 0 := by omega
  have hscan' : ¬calls.scanDevices < 0 := by omega
  simp [waitForUdev, hnew, henum, hsub', hinit', hscan']

private theorem waitForUdev_of_match {calls : UdevCalls} {subsys : String} (h : calls.Scanned)
    (hmatch : ∃ ent ∈ calls.entries, IsMatch subsys ent) : waitForUdev calls subsys = 0 := by
  have hne : ¬calls.entries.isEmpty = true := by
    obtain ⟨ent, hmem, -⟩ := hmatch
    rw [List.isEmpty_iff]
    exact List.ne_nil_of_mem hmem
  rw [waitForUdev_eq h, if_neg hne, searchEntries_of_match hmatch]

/-- Without a match the result of the scan shows through, unless the list is empty. -/
private theorem waitForUdev_of_no_match {calls : UdevCalls} {subsys : String} (h : calls.Scanned)
    (hno : ¬∃ ent ∈ calls.entries, IsMatch subsys ent) :
    waitForUdev calls subsys = if calls.entries.isEmpty then -1 else calls.scanDevices := by
  rw [waitForUdev_eq h, searchEntries_of_no_match fun ent hmem hent => hno ⟨ent, hmem, hent⟩]

/-- After a successful scan the result is 0 for a match only if and only if the list is empty, has a match, or the scan
returned something else than 0. -/
theorem wait_for_udev_iff {calls : UdevCalls} (h : calls.Scanned) (subsys : String) :
    (waitForUdev calls subsys = 0 ↔ ∃ ent ∈ calls.entries, IsMatch subsys ent) ↔
      calls.entries = [] ∨ (∃ ent ∈ calls.entries, IsMatch subsys ent) ∨ calls.scanDevices ≠ 0 := by
  by_cases hmatch : ∃ ent ∈ calls.entries, IsMatch subsys ent
  · simp only [waitForUdev_of_match h hmatch, hmatch, true_or, or_true]
  · rw [waitForUdev_of_no_match h hmatch]
    by_cases hempty : calls.entries = []
    · simp [hempty]
    · have hne : ¬calls.entries.isEmpty = true := by simpa using hempty
      simp only [if_neg hne, hmatch, hempty, false_or, iff_false, ne_eq]

/-- One camera. -/
theorem wait_for_udev_iff_one :
    let calls : UdevCalls := ⟨true, true, 0, 0, 0, [some ⟨some "/dev/media0", some "media"⟩]⟩
    (waitForUdev calls "media" = 0 ↔ ∃ ent ∈ calls.entries, IsMatch "media" ent) ↔
      calls.entries = [] ∨ (∃ ent ∈ calls.entries, IsMatch "media" ent) ∨ calls.scanDevices ≠ 0 :=
  wait_for_udev_iff ⟨rfl, rfl, by decide, by decide, by decide⟩ "media"

/-- A single entry whose device cannot be looked up: the result is that of the scan, 0. -/
theorem no_match_reports_success :
    let calls : UdevCalls := ⟨true, true, 0, 0, 0, [none]⟩
    calls.Scanned ∧ waitForUdev calls "media" = 0 ∧ ¬∃ ent ∈ calls.entries, IsMatch "media" ent := by
  refine ⟨⟨rfl, rfl, by decide, by decide, by decide⟩, by decide, ?_⟩
  simp [IsMatch]

/-- The boot-time wait over attempts that all scan: it ends early at a match, or at a list without one after a scan that
returned 0. -/
theorem waitAttempts_eq_zero_iff {subsys : String} {attempts : List UdevCalls}
    (hscan : ∀ calls ∈ attempts, calls.Scanned) :
    waitAttempts subsys attempts = 0 ↔ ∃ calls ∈ attempts,
      (∃ ent ∈ calls.entries, IsMatch subsys ent) ∨ (calls.entries ≠ [] ∧ calls.scanDevices = 0) := by
  induction attempts with
  | nil => simp [waitAttempts]
  | cons calls attempts ih =>
    have hcalls := hscan calls List.mem_cons_self
    have hrest := ih fun c hc => hscan c (List.mem_cons_of_mem _ hc)
    rw [waitAttempts, List.exists_mem_cons_iff, ← hrest]
    by_cases hmatch : ∃ ent ∈ calls.entries, IsMatch subsys ent
    · simp only [waitForUdev_of_match hcalls hmatch, hmatch, if_true, true_or]
    · by_cases hempty : calls.entries = []
      · simp [waitForUdev_of_no_match hcalls hmatch, hempty]
      · by_cases hzero : calls.scanDevices = 0
        · simp [waitForUdev_of_no_match hcalls hmatch, hempty, hzero]
        · simp [waitForUdev_of_no_match hcalls hmatch, hempty, hzero, hmatch]

end Twincam
