import SpiderNet.Text
import SpiderNet.Library.Transition

namespace SpiderNet.Node
open Transition

abbrev Mode := BitVec 12

structure File where
  mode : Mode
  content : Bytes

inductive WriteStage where
  | creating
  | writing (rest : Bytes)
  | restricting
  | written
  | failed

-- `opened` is whether this write has opened, and with that emptied, the file
structure WriteState where
  stage : WriteStage
  file : Option File
  opened : Bool

def openMode (umask : Mode) : Option File → Mode
  | some file => file.mode
  | none => 0o666 &&& ~~~umask

def ownerMode : Mode := 0o600

def startWrite (prior : Option File) : WriteState := ⟨.creating, prior, false⟩

inductive WriteStep (umask : Mode) (text : Bytes) : WriteState → WriteState → Prop
  | create (prior : Option File) : WriteStep umask text ⟨.creating, prior, false⟩
      ⟨.writing text, some ⟨openMode umask prior, []⟩, true⟩
  | write (chunk rest : Bytes) (file : File) (opened : Bool) (hsome : chunk ≠ []) :
      WriteStep umask text ⟨.writing (chunk ++ rest), some file, opened⟩
        ⟨.writing rest, some { file with content := file.content ++ chunk }, opened⟩
  | flush (file : Option File) (opened : Bool) :
      WriteStep umask text ⟨.writing [], file, opened⟩ ⟨.restricting, file, opened⟩
  | restrict (file : File) (opened : Bool) :
      WriteStep umask text ⟨.restricting, some file, opened⟩
        ⟨.written, some { file with mode := ownerMode }, opened⟩

-- how far a write of `text` has come that began by opening the file
def TextWriting (text : Bytes) : WriteState → Prop
  | ⟨.creating, _, opened⟩ => opened = false
  | ⟨.writing rest, file, _⟩ => ∃ content, file.map (·.content) = some content ∧ content ++ rest = text
  | ⟨.restricting, file, _⟩ => file.map (·.content) = some text
  | ⟨.written, file, _⟩ => file = some ⟨ownerMode, text⟩
  | ⟨.failed, _, _⟩ => False

theorem TextWriting.step {umask : Mode} {text : Bytes} {w w' : WriteState} (h : TextWriting text w)
    (hstep : WriteStep umask text w w') : TextWriting text w' := by
  cases hstep with
  | create prior => exact ⟨[], rfl, rfl⟩
  | write chunk rest file _ hsome =>
    obtain ⟨content, hcontent, hsplit⟩ := h
    obtain rfl : file.content = content := Option.some.inj hcontent
    exact ⟨_, rfl, by rw [List.append_assoc, hsplit]⟩
  | flush file opened =>
    obtain ⟨content, hcontent, hsplit⟩ := h
    rw [List.append_nil] at hsplit
    exact hsplit ▸ hcontent
  | restrict file opened =>
    obtain rfl : file.content = text := Option.some.inj h
    rfl

def WriteStage.Ended : WriteStage → Prop
  | .written | .failed => True
  | _ => False

-- each call may also fail; the file stays as it is
inductive FaultyWrite (umask : Mode) (text : Bytes) : WriteState → WriteState → Prop
  | step {s s' : WriteState} (h : WriteStep umask text s s') : FaultyWrite umask text s s'
  | fail {s : WriteState} (h : ¬s.stage.Ended) : FaultyWrite umask text s { s with stage := .failed }

def writePrivateKey (umask : Mode) (key : Text) : WriteState → WriteState → Prop :=
  FaultyWrite umask (toUtf8 key)

def writeConfig (umask : Mode) (json : Text) : WriteState → WriteState → Prop :=
  FaultyWrite umask (toUtf8 json)

def GrantsOthers (mode : Mode) : Prop := mode &&& 0o077 ≠ 0

-- the file holds a byte of the secret, which follows `before` in the text, and others have a
-- permission on it
def Exposed (before secret : Bytes) (s : WriteState) : Prop :=
  s.opened ∧ secret ≠ [] ∧ ∃ file, s.file = some file ∧ before.length < file.content.length ∧
    GrantsOthers file.mode

section
variable {umask : Mode} {text : Bytes} {prior : Option File} {s s' : WriteState}

def ModeKept (umask : Mode) (prior : Option File) (s : WriteState) : Prop :=
  match s.opened with
  | false => s.file = prior ∧ (s.stage = .creating ∨ s.stage = .failed)
  | true => ∃ file, s.file = some file ∧ (file.mode = openMode umask prior ∨ file.mode = ownerMode)

theorem modeKept_start (umask : Mode) (prior : Option File) :
    ModeKept umask prior (startWrite prior) := ⟨rfl, Or.inl rfl⟩

theorem ModeKept.step (h : ModeKept umask prior s) (hstep : FaultyWrite umask text s s') :
    ModeKept umask prior s' := by
  cases hstep with
  | fail hrunning =>
    obtain ⟨stage, file, opened⟩ := s
    cases opened with
    | false => exact ⟨h.1, Or.inr rfl⟩
    | true => exact h
  | step hstep =>
    cases hstep with
    | create file =>
      obtain rfl : file = prior := h.1
      exact ⟨_, rfl, Or.inl rfl⟩
    | write chunk rest file opened hsome =>
      cases opened with
      | false => exact absurd h.2 (by simp)
      | true =>
        obtain ⟨file', hfile, hmode⟩ := h
        obtain rfl : file = file' := Option.some.inj hfile
        exact ⟨_, rfl, hmode⟩
    | flush file opened =>
      cases opened with
      | false => exact absurd h.2 (by simp)
      | true => exact h
    | restrict file opened =>
      cases opened with
      | false => exact absurd h.2 (by simp)
      | true => exact ⟨_, rfl, Or.inr rfl⟩

theorem not_exposed {before secret : Bytes} (hmode : ¬GrantsOthers (openMode umask prior))
    (hrun : Reachable (FaultyWrite umask text) (startWrite prior) s) : ¬Exposed before secret s := by
  rintro ⟨hopened, _, file, hfile, _, hgrants⟩
  have hkept : ModeKept umask prior s :=
    hrun.invariant (fun h hstep => h.step hstep) (modeKept_start umask prior)
  rw [ModeKept, hopened] at hkept
  obtain ⟨file', hfile', hmode'⟩ := hkept
  obtain rfl := Option.some.inj (hfile.symm.trans hfile')
  rcases hmode' with hopen | howner
  · exact hmode (hopen ▸ hgrants)
  · rw [howner] at hgrants
    exact hgrants (by decide)

end

theorem exposed_reachable {umask : Mode} {prior : Option File} {before secret after : Bytes}
    (hsecret : secret ≠ []) (hmode : GrantsOthers (openMode umask prior)) :
    ∃ s, Reachable (FaultyWrite umask (before ++ secret ++ after)) (startWrite prior) s ∧
      Exposed before secret s := by
  have hlength := List.length_pos_iff.mpr hsecret
  have hsome : before ++ secret ++ after ≠ [] := by simp [hsecret]
  have hopen : FaultyWrite umask (before ++ secret ++ after) (startWrite prior)
      ⟨.writing (before ++ secret ++ after ++ []), some ⟨openMode umask prior, []⟩, true⟩ := by
    rw [List.append_nil]
    exact .step (.create prior)
  refine ⟨_, ((Reachable.refl _).tail hopen).tail (.step (.write _ [] _ true hsome)), rfl, hsecret, _,
    rfl, ?_, hmode⟩
  simp only [List.nil_append, List.length_append]
  omega

-- at no moment of a write, wherever it stops, is a byte of the secret open to others
def NeverExposed (write : WriteState → WriteState → Prop) (prior : Option File)
    (before secret : Text) : Prop :=
  ∀ s, Reachable write (startWrite prior) s → ¬Exposed (toUtf8 before) (toUtf8 secret) s

theorem toUtf8_ne_nil {text : Text} (h : text ≠ []) : toUtf8 text ≠ [] := by
  intro hnil
  have hback := fromUtf8_toUtf8 text
  rw [hnil] at hback
  exact h (Option.some.inj hback).symm

theorem neverExposed_iff (umask : Mode) (prior : Option File) (before secret after : Text) :
    NeverExposed (FaultyWrite umask (toUtf8 (before ++ secret ++ after))) prior before secret ↔
      secret = [] ∨ ¬GrantsOthers (openMode umask prior) := by
  constructor
  · intro hnever
    by_contra hcases
    obtain ⟨hsecret, hmode⟩ := not_or.mp hcases
    rw [not_not] at hmode
    have hreach := @exposed_reachable umask prior (toUtf8 before) _ (toUtf8 after)
      (toUtf8_ne_nil hsecret) hmode
    rw [← toUtf8_append, ← toUtf8_append] at hreach
    obtain ⟨s, hrun, hexposed⟩ := hreach
    exact hnever s hrun hexposed
  · rintro (rfl | hmode) s hrun
    · rintro ⟨_, hsome, _⟩
      exact hsome rfl
    · exact not_exposed hmode hrun

theorem owner_only_iff (umask : Mode) (prior : Option File) :
    (∀ key, NeverExposed (writePrivateKey umask key) prior [] key ↔
      key = [] ∨ ¬GrantsOthers (openMode umask prior)) ∧
    ∀ before secret after,
      NeverExposed (writeConfig umask (before ++ secret ++ after)) prior before secret ↔
        secret = [] ∨ ¬GrantsOthers (openMode umask prior) := by
  refine ⟨fun key => ?_, fun before secret after => neverExposed_iff umask prior before secret after⟩
  have hkey := neverExposed_iff umask prior [] key []
  rwa [List.nil_append, List.append_nil] at hkey

-- a fresh key file under the usual umask 022 is readable by everyone until it is restricted
theorem writePrivateKey_exposed :
    ¬NeverExposed (writePrivateKey 0o022 "00ff".toList) none [] "00ff".toList := by
  intro hnever
  have hexposed := (neverExposed_iff 0o022 none [] "00ff".toList []).mp hnever
  revert hexposed
  rw [GrantsOthers]
  decide

end SpiderNet.Node
