-- SUMMARY: Facts about all characters of ASCII, from facts about their codes.
import Drama.Text.Blank
import Drama.Text.Line

/-!
# Characters of ASCII

There are 128 characters of ASCII, so what holds of each of their codes holds of all of them. What is the same
for a letter and its capital is `Caseless`.
-/

namespace Drama.Text

/-- Whether a character is one of ASCII. -/
def IsAscii (c : Char) : Prop := c.toNat < 0x80

instance : DecidablePred IsAscii := fun c => inferInstanceAs (Decidable (c.toNat < 0x80))

theorem IsAscii.of_codes {p : Char → Prop} (h : ∀ code < 0x80, p (Char.ofNat code)) {c : Char}
    (hc : IsAscii c) : p c := by
  have hcode := h c.toNat hc
  rwa [Char.ofNat_toNat] at hcode

theorem IsAscii.of_isDigit {c : Char} (h : c.isDigit = true) : IsAscii c :=
  Nat.lt_of_le_of_lt (Char.isDigit_iff_toNat.1 h).2 (by decide)

/-- A digit of ASCII is no blank, no boundary of lines, and no sign. -/
theorem of_isDigit {c : Char} (h : c.isDigit = true) :
    isBlank c = false ∧ isLineBoundary c = false ∧ c ∉ ['\r', '-', '+', '_'] := by
  have hdigits : ∀ code < 0x80, (Char.ofNat code).isDigit = true →
      isBlank (Char.ofNat code) = false ∧ isLineBoundary (Char.ofNat code) = false ∧
        Char.ofNat code ∉ ['\r', '-', '+', '_'] := by decide
  exact IsAscii.of_codes (p := fun c => c.isDigit = true → isBlank c = false ∧
    isLineBoundary c = false ∧ c ∉ ['\r', '-', '+', '_']) hdigits (.of_isDigit h) h

/-! ## Letter case -/

/-- What is made of a character of ASCII does not depend on its case. -/
def Caseless {α : Type} (f : Char → α) : Prop := ∀ c, IsAscii c → f c.toUpper = f c

theorem Caseless.of_codes {α : Type} {f : Char → α}
    (h : ∀ code < 0x80, f (Char.ofNat code).toUpper = f (Char.ofNat code)) : Caseless f :=
  fun _ hc => IsAscii.of_codes (p := fun c => f c.toUpper = f c) h hc

theorem Caseless.map_eq {α : Type} {f : Char → α} (hf : Caseless f) {text : List Char}
    (h : ∀ c ∈ text, IsAscii c) : (text.map Char.toUpper).map f = text.map f := by
  rw [List.map_map]
  exact List.map_congr_left fun c hc => hf c (h c hc)

theorem Caseless.filterMap_eq {α : Type} {f : Char → Option α} (hf : Caseless f) {text : List Char}
    (h : ∀ c ∈ text, IsAscii c) : (text.map Char.toUpper).filterMap f = text.filterMap f := by
  induction text with
  | nil => rfl
  | cons c text ih =>
    obtain ⟨hc, htext⟩ := List.forall_mem_cons.1 h
    rw [List.map_cons, List.filterMap_cons, List.filterMap_cons, hf c hc, ih htext]

theorem Caseless.head? {α : Type} {f : Char → α} (hf : Caseless f) {text : List Char}
    (h : ∀ c ∈ text, IsAscii c) : (text.map Char.toUpper).head?.map f = text.head?.map f := by
  rw [List.head?_map, Option.map_map]
  exact Option.map_congr fun c hc => hf c (h c (List.mem_of_mem_head? hc))

theorem Caseless.takeWhile {p : Char → Bool} (hp : Caseless p) {text : List Char}
    (h : ∀ c ∈ text, IsAscii c) :
    (text.map Char.toUpper).takeWhile p = (text.takeWhile p).map Char.toUpper := by
  induction text with
  | nil => rfl
  | cons c text ih =>
    obtain ⟨hc, htext⟩ := List.forall_mem_cons.1 h
    rw [List.map_cons, List.takeWhile_cons, List.takeWhile_cons, hp c hc, ih htext]
    split
    · rfl
    · rfl

end Drama.Text
