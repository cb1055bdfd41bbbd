import Gallows.Proofs.Settings.Dump
import Gallows.Settings.Action

/-!
Passwords that are not shown. A password is hidden if it is used as it is written, whatever machine
the program runs on; only references are shown, which say where a password is kept.
-/
namespace Gallows

variable {v : String}

namespace Secret

/-- A setting is taken for a reference exactly when it is resolved as one. -/
theorem isReference_eq (v : String) : isReference v = (Reference.of? v).isSome := by
  have hentry : (Reference.entryMark.isPrefixOf? v.toList).isSome =
      Reference.entryMark.isPrefixOf v.toList := List.isSome_isPrefixOf?_eq_isPrefixOf ..
  have henvironment : (Reference.environmentMark.isPrefixOf? v.toList).isSome =
      Reference.environmentMark.isPrefixOf v.toList := List.isSome_isPrefixOf?_eq_isPrefixOf ..
  rw [isReference, ← hentry, ← henvironment, Reference.of?]
  cases Reference.entryMark.isPrefixOf? v.toList with
  | some path => rfl
  | none => simp

/-- What is no reference is the password itself. -/
theorem resolve_plain (h : isReference v = false) (host : Host) : resolve host v = .ok v := by
  rw [isReference_eq, Option.isSome_eq_false_iff, Option.isNone_iff_eq_none] at h
  rw [resolve, h]

/-- A machine without variables and without a password store has nothing to refer to. -/
theorem resolve_bare (h : isReference v) : ∃ e, resolve {} v = .error e := by
  rw [isReference_eq] at h
  obtain ⟨reference, href⟩ := Option.isSome_iff_exists.mp h
  rw [resolve, href]
  cases reference with
  | entry path =>
    simp only [ofEntry]
    split
    · exact ⟨_, rfl⟩
    · exact ⟨_, rfl⟩
  | environment name =>
    have hunset : Host.valueOf {} name = none := by
      rw [Host.valueOf]
      split <;> rfl
    simp only [hunset]
    exact ⟨_, rfl⟩

/-- What is resolved to itself on every machine is no reference. -/
theorem isReference_eq_false_iff :
    isReference v = false ↔ ∀ host, resolve host v = .ok v := by
  refine ⟨fun h host => resolve_plain h host, fun h => ?_⟩
  by_contra href
  obtain ⟨e, he⟩ := resolve_bare (Bool.eq_true_of_not_eq_false href)
  rw [h {}] at he
  cases he

example : ["", "pass:", "pass:: ", "env:X", " env::X", "env::", "PASS::x"].map isReference =
    [false, false, true, false, false, true, false] := by decide

end Secret

namespace Settings

variable {s t : Settings} {text : String}

/-- Whether settings differ in nothing but passwords that are used as they are written. -/
structure Alike (s t : Settings) : Prop where
  server : s.server = t.server
  username : s.player.username = t.player.username
  passwords : ∃ p q, s.player.password = some p ∧ t.player.password = some q ∧
    Secret.isReference p = false ∧ Secret.isReference q = false

theorem Alike.masked (h : s.Alike t) : s.masked = t.masked := by
  obtain ⟨p, q, hp, hq, hplain, hplain'⟩ := h.passwords
  simp [Settings.masked, hp, hq, hplain, hplain', h.server, h.username]

/-- A reference is not masked. -/
theorem masked_of_isReference (hp : s.player.password = some v) (hv : Secret.isReference v) :
    s.masked = s := by
  obtain ⟨server, username, password⟩ := s
  obtain rfl : password = some v := hp
  simp [masked, hv]

/-- The password stands on the last line. -/
theorem write_password (hp : s.player.password = some v) (h : s.write = .ok text) :
    ∃ before, text = before ++ line "password" (Toml.quote v) := by
  obtain ⟨server, -, h⟩ := bind_eq_ok h
  cases h
  let username := (s.player.username.map fun v => line "username" (Toml.quote v)).getD ""
  refine ⟨server ++ "\n" ++ ("[player]\n" ++ username), ?_⟩
  simp [Player.write, hp, username, String.append_assoc]

/-- The password is masked exactly when every machine uses it as it is written. -/
theorem masked_password_iff (hp : s.player.password = some v) :
    s.masked.player.password = some mask ↔ ∀ host, Secret.resolve host v = .ok v := by
  have hmask : Secret.isReference mask = false := by decide
  rw [← Secret.isReference_eq_false_iff]
  cases hv : Secret.isReference v with
  | false => simp [masked, hp, hv]
  | true =>
    have hne : v ≠ mask := by
      rintro rfl
      rw [hmask] at hv
      cases hv
    simp [masked_of_isReference hp hv, hp, hne]

/-- What is shown does not depend on a password that is used as it is written. Whatever is not taken
for a reference is used so; what depends on the machine is taken for one, and is shown as it stands.
Thus the mask is shown exactly in place of what every machine uses as it is written. -/
theorem dump_hides :
    (∀ s t : Settings, s.Alike t → ∀ host, s.dump host = t.dump host) ∧
      ∀ v : String,
        (Secret.isReference v = false → ∀ host, Secret.resolve host v = .ok v) ∧
        (∀ host host', Secret.resolve host v ≠ Secret.resolve host' v →
          Secret.isReference v ∧ ∀ (s : Settings) (text : String), s.player.password = some v →
            s.render = .ok text →
              ofText? text = some s ∧ ∃ before, text = before ++ line "password" (Toml.quote v)) ∧
        ∀ (s : Settings) (text : String), s.player.password = some v → s.render = .ok text →
          ((ofText? text).bind (·.player.password) = some mask ↔
            ∀ host, Secret.resolve host v = .ok v) := by
  refine ⟨fun s t h host => ?_, fun v => ⟨Secret.resolve_plain, fun host host' hne => ?_, ?_⟩⟩
  · rw [dump, dump, render, render, h.masked]
  · have href : Secret.isReference v := by
      by_contra hplain
      rw [Bool.not_eq_true] at hplain
      exact hne ((Secret.resolve_plain hplain host).trans (Secret.resolve_plain hplain host').symm)
    refine ⟨href, fun s text hp hrender => ?_⟩
    rw [render, masked_of_isReference hp href] at hrender
    exact ⟨ofText?_write hrender, write_password hp hrender⟩
  · intro s text hp hrender
    rw [ofText?_write hrender]
    exact masked_password_iff hp

end Settings
end Gallows
