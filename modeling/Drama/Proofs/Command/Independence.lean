-- SUMMARY: Digit ranges and fields are independent: each reads as it was last written, whatever is written elsewhere.
import Drama.Proofs.Command.Field
import Mathlib.Data.List.Nodup

/-!
# Independent digits and fields

Digit ranges of words of every width are lenses, and those of the fields of a command word do not meet. So what a
command word says of a field after any sequence of settings, refused ones among them, is the last value set that
fits (`CommandWord.get?_setAll`). Which order fields are set in does not matter, and the fields are all there is
to a word.
-/

namespace Drama

/-! ## Digit ranges -/

/-- Ranges of the digits of a word are read and written independently of each other: what is written is read, the
digits outside stay, the later of two writes to a range wins, and writes to ranges that do not meet can be
exchanged. Nothing is written to a range that is not there or does not hold the value. -/
structure Word.IndependentDigits (n : Nat) : Prop where
  written (w : Word n) (r : DigitRange n) (value : Nat) (h : value < tenPow r.width) :
    ∃ w' : Word n, w.withDigits? r.low r.high value = .ok w' ∧ w'.digits? r.low r.high = .ok value ∧
      ∀ position < n, ¬(r.low ≤ position ∧ position ≤ r.high) →
        w'.digits? position position = w.digits? position position
  restored (w : Word n) (r : DigitRange n) :
    ∃ value : Nat, w.digits? r.low r.high = .ok value ∧ w.withDigits? r.low r.high value = .ok w
  overwritten (w : Word n) (r : DigitRange n) (first : Nat) (h : first < tenPow r.width) (second : Int) :
    (w.withDigits? r.low r.high first >>= (·.withDigits? r.low r.high second)) =
      w.withDigits? r.low r.high second
  exchanged (w : Word n) (r s : DigitRange n) (hd : r.Disjoint s) (a b : Nat) (ha : a < tenPow r.width)
    (hb : b < tenPow s.width) :
    (w.withDigits? r.low r.high a >>= (·.withDigits? s.low s.high b)) =
      (w.withDigits? s.low s.high b >>= (·.withDigits? r.low r.high a))
  outside (w : Word n) (low high : Int) (h : ¬(0 ≤ low ∧ low ≤ high ∧ high < n)) :
    w.digits? low high = .error (.digitsOutOfRange low high n) ∧
      ∀ value, w.withDigits? low high value = .error (.digitsOutOfRange low high n)
  unfit (w : Word n) (r : DigitRange n) (value : Int) (h : ¬(0 ≤ value ∧ value < tenPow r.width)) :
    w.withDigits? r.low r.high value = .error (.doesNotFit value r.low r.high)

theorem Word.independentDigits (n : Nat) : IndependentDigits n where
  written w r value h := by
    have hwritten : w.withDigits? r.low r.high value = .ok (w.withDigits r value h) := by
      rw [withDigits?_eq, replaceDigits_eq_ok]
    refine ⟨_, hwritten, ?_, fun position hposition hout => ?_⟩
    · rw [digits?_eq_ok, digits_withDigits]
    · have hsingle (v : Word n) : v.digits? position position = .ok (v.digits (.single position hposition)) :=
        v.digits?_eq_ok (.single position hposition)
      rw [hsingle, hsingle, digits_single_withDigits, if_neg hout]
  restored w r := by
    refine ⟨w.digits r, w.digits?_eq_ok r, ?_⟩
    rw [withDigits?_eq, replaceDigits_eq_ok _ _ (w.digits_lt r), withDigits_digits]
  overwritten w r first h second := by
    simp only [withDigits?_eq, replaceDigits_eq_ok w r h, bind, Except.bind, replaceDigits_withDigits]
  exchanged w r s hd a b ha hb := by
    simp only [withDigits?_eq, replaceDigits_eq_ok _ _ ha, replaceDigits_eq_ok _ _ hb, bind, Except.bind,
      withDigits_comm w hd ha hb]
  outside w low high h := by
    have hnone := ofInts?_eq_none h
    refine ⟨?_, fun value => ?_⟩
    · rw [digits?, hnone]
    · rw [withDigits?, hnone]
  unfit w r value h := by rw [withDigits?_eq, replaceDigits_eq_error w r h]

/-! ## Fields -/

namespace Field

/-- Whether a value has no more digits than the field. -/
def Fits (f : Field) (value : Int) : Prop := 0 ≤ value ∧ value < tenPow f.range.width

instance (f : Field) (value : Int) : Decidable (f.Fits value) := inferInstanceAs (Decidable (_ ∧ _))

theorem named?_name (f : Field) : named? f.name = some f := by
  cases f <;> decide

/-- The last of some settings that is one of the field and has a value that fits. -/
def lastFitting? (f : Field) (settings : List (Field × Int)) : Option Int :=
  (settings.filter fun s => s.1 = f ∧ f.Fits s.2).getLast?.map (·.2)

theorem lastFitting?_cons (f g : Field) (value : Int) (later : List (Field × Int)) :
    f.lastFitting? ((g, value) :: later) =
      (f.lastFitting? later).or (if g = f ∧ f.Fits value then some value else none) := by
  unfold lastFitting?
  rw [List.filter_cons]
  simp only [decide_eq_true_eq]
  split
  · rw [List.getLast?_cons]
    cases (later.filter fun s => s.1 = f ∧ f.Fits s.2).getLast? <;> rfl
  · rw [Option.or_none]

end Field

namespace CommandWord

variable {w : CommandWord} {f : Field} {value : Int} {settings settings' : List (Field × Int)}

theorem get?_name (w : CommandWord) (f : Field) : w.get? f.name = some (f.get w.base : Int) := by
  rw [get?, f.named?_name]

/-- A value that fits is read where it is set, and nothing else changes. -/
theorem set_of_fits (w : CommandWord) (h : f.Fits value) :
    ∃ w', w.set f.name value = .ok w' ∧ w'.notes = w.notes ∧
      ∀ g : Field, w'.get? g.name = if g = f then some value else w.get? g.name := by
  obtain ⟨hpos, hlt⟩ := h
  obtain ⟨n, rfl⟩ := Int.eq_ofNat_of_zero_le hpos
  obtain ⟨base, hset, hfields⟩ := f.set_ok w.base n (Int.ofNat_lt.1 hlt)
  refine ⟨{ w with base := base }, ?_, rfl, fun g => ?_⟩
  · rw [set, f.named?_name]
    simp only [hset, Except.map]
  · have hg : g.get base = if g = f then n else g.get w.base :=
      (congrFun hfields g).trans (Function.update_apply ..)
    rw [get?_name, get?_name, hg]
    split <;> rfl

theorem set_of_not_fits (w : CommandWord) (h : ¬f.Fits value) :
    w.set f.name value = .error (.doesNotFit value f.range.low f.range.high) := by
  rw [set, f.named?_name]
  simp only [Field.set, Word.replaceDigits_eq_error w.base f.range h, Except.map]

/-- Command words that say the same of all fields have the same base. -/
theorem base_eq_of_get? {v : CommandWord} (h : ∀ f : Field, w.get? f.name = v.get? f.name) :
    w.base = v.base := by
  refine Word.fields_injective (funext fun f => ?_)
  have hf := h f
  rw [get?_name, get?_name] at hf
  exact Int.ofNat.inj (Option.some.inj hf)

theorem eq_of_get? {v : CommandWord} (h : ∀ f : Field, w.get? f.name = v.get? f.name)
    (hnotes : w.notes = v.notes) : w = v := by
  obtain ⟨base, notes⟩ := w
  obtain ⟨base', notes'⟩ := v
  obtain rfl : base = base' := base_eq_of_get? h
  obtain rfl : notes = notes' := hnotes
  rfl

/-! ## Settings one after the other -/

/-- The word after fields have been set one after the other. A value that does not fit is refused, and the word
stays as it is. -/
def setAll (w : CommandWord) : List (Field × Int) → CommandWord
  | [] => w
  | (f, value) :: later =>
    match w.set f.name value with
    | .ok w' => w'.setAll later
    | .error _ => w.setAll later

theorem notes_setAll (w : CommandWord) (settings : List (Field × Int)) :
    (w.setAll settings).notes = w.notes := by
  induction settings generalizing w with
  | nil => rfl
  | cons s later ih =>
    obtain ⟨f, value⟩ := s
    rw [setAll]
    by_cases h : f.Fits value
    · obtain ⟨w', hset, hnotes, -⟩ := w.set_of_fits h
      rw [hset, ← hnotes]
      exact ih w'
    · rw [w.set_of_not_fits h]
      exact ih w

/-- After any settings a field has the last value that fits, or its old one if there is none. -/
theorem get?_setAll (w : CommandWord) (settings : List (Field × Int)) (f : Field) :
    (w.setAll settings).get? f.name = (f.lastFitting? settings).or (w.get? f.name) := by
  induction settings generalizing w with
  | nil => rfl
  | cons s later ih =>
    obtain ⟨g, value⟩ := s
    rw [setAll, Field.lastFitting?_cons, Option.or_assoc]
    by_cases h : g.Fits value
    · obtain ⟨w', hset, -, hget⟩ := w.set_of_fits h
      have hstep : w'.get? f.name =
          (if g = f ∧ f.Fits value then some value else none).or (w.get? f.name) := by
        rw [hget]
        by_cases hg : f = g
        · subst hg
          simp [h]
        · simp [hg, Ne.symm hg]
      rw [hset, ← hstep]
      exact ih w'
    · have hnone : ¬(g = f ∧ f.Fits value) := fun ⟨hg, hfits⟩ => h (hg ▸ hfits)
      rw [w.set_of_not_fits h, if_neg hnone]
      exact ih w

end CommandWord

namespace Field

variable {f : Field} {value : Int} {settings settings' : List (Field × Int)}

/-- Where no field is set twice, the last setting of a field is the one that there is. -/
theorem lastFitting?_eq_some_iff (hnodup : (settings.map Prod.fst).Nodup) :
    f.lastFitting? settings = some value ↔ (f, value) ∈ settings ∧ f.Fits value := by
  have hmem (s : Field × Int) : s ∈ settings.filter (fun s => s.1 = f ∧ f.Fits s.2) ↔
      s ∈ settings ∧ s.1 = f ∧ f.Fits s.2 := by
    rw [List.mem_filter, decide_eq_true_eq]
  constructor
  · intro h
    obtain ⟨s, hlast, rfl⟩ := Option.map_eq_some_iff.1 h
    obtain ⟨hs, rfl, hfits⟩ := (hmem s).1 (List.mem_of_getLast? hlast)
    exact ⟨hs, hfits⟩
  · rintro ⟨hs, hfits⟩
    have hin := (hmem (f, value)).2 ⟨hs, rfl, hfits⟩
    obtain ⟨s, hlast⟩ := Option.isSome_iff_exists.1 (List.getLast?_isSome.2 (List.ne_nil_of_mem hin))
    obtain ⟨hs', hf, -⟩ := (hmem s).1 (List.mem_of_getLast? hlast)
    obtain rfl := List.inj_on_of_nodup_map hnodup hs' hs hf
    rw [lastFitting?, hlast]
    rfl

theorem lastFitting?_perm (h : settings.Perm settings') (hnodup : (settings.map Prod.fst).Nodup) :
    f.lastFitting? settings = f.lastFitting? settings' := by
  refine Option.ext fun value => ?_
  rw [lastFitting?_eq_some_iff hnodup, lastFitting?_eq_some_iff ((h.map Prod.fst).nodup hnodup), h.mem_iff]

end Field

namespace CommandWord

variable {w : CommandWord} {settings settings' : List (Field × Int)}

/-- The order in which different fields are set does not matter. -/
theorem setAll_perm (w : CommandWord) (h : settings.Perm settings') (hnodup : (settings.map Prod.fst).Nodup) :
    w.setAll settings = w.setAll settings' := by
  apply eq_of_get?
  · intro f
    rw [get?_setAll, get?_setAll, Field.lastFitting?_perm h hnodup]
  · rw [notes_setAll, notes_setAll]

/-- If all values fit, none is refused on the way. -/
theorem foldlM_set (w : CommandWord) (h : ∀ s ∈ settings, s.1.Fits s.2) :
    settings.foldlM (fun w s => w.set s.1.name s.2) w = .ok (w.setAll settings) := by
  induction settings generalizing w with
  | nil => rfl
  | cons s later ih =>
    obtain ⟨f, value⟩ := s
    rw [List.forall_mem_cons] at h
    obtain ⟨w', hset, -⟩ := w.set_of_fits h.1
    rw [List.foldlM_cons, setAll, hset]
    exact ih w' h.2

/-- Fields are set and read independently of each other, in any order and after any settings, and a value that
does not fit changes none of them. What the fields say determines the base of the word. -/
structure IndependentFields : Prop where
  set (w : CommandWord) (f : Field) (value : Int) (h : f.Fits value) :
    ∃ w', w.set f.name value = .ok w' ∧ w'.notes = w.notes ∧
      ∀ g : Field, w'.get? g.name = if g = f then some value else w.get? g.name
  refused (w : CommandWord) (f : Field) (value : Int) (h : ¬f.Fits value) :
    w.set f.name value = .error (.doesNotFit value f.range.low f.range.high)
  history (w : CommandWord) (settings : List (Field × Int)) (f : Field) :
    (w.setAll settings).get? f.name = (f.lastFitting? settings).or (w.get? f.name)
  accepted (w : CommandWord) (settings : List (Field × Int)) (h : ∀ s ∈ settings, s.1.Fits s.2) :
    settings.foldlM (fun w s => w.set s.1.name s.2) w = .ok (w.setAll settings)
  exchanged (w : CommandWord) (settings settings' : List (Field × Int)) (h : settings.Perm settings')
    (hnodup : (settings.map Prod.fst).Nodup) : w.setAll settings = w.setAll settings'
  determined (w v : CommandWord) (h : ∀ f : Field, w.get? f.name = v.get? f.name) : w.base = v.base

theorem independentFields : IndependentFields where
  set w _ _ h := w.set_of_fits h
  refused w _ _ h := w.set_of_not_fits h
  history := get?_setAll
  accepted w _ h := w.foldlM_set h
  exchanged w _ _ h hnodup := w.setAll_perm h hnodup
  determined _ _ := base_eq_of_get?

end CommandWord

/-- Digits of words of every width are written independently of each other, and so are the fields of a command
word, which are all there is to it. -/
theorem digits_independent : (∀ n, Word.IndependentDigits n) ∧ CommandWord.IndependentFields :=
  ⟨Word.independentDigits, CommandWord.independentFields⟩

/-- The address and the opcode of a word are exchanged, and a register with two digits is refused between two
settings of the opcode. -/
theorem digits_independent_of_refused_setting :
    (let w : MachineWord := .wrap 1234567890;
      (w.withDigits? 0 3 42 >>= (·.withDigits? 8 9 33)) = (w.withDigits? 8 9 33 >>= (·.withDigits? 0 3 42))) ∧
      let w : CommandWord := .ofBase (.wrap 1234567890)
      let settings : List (Field × Int) := [(.opcode, 11), (.register, 10), (.opcode, 33)]
      w.set Field.register.name 10 = .error (.doesNotFit 10 5 5) ∧
        (w.setAll settings).get? Field.opcode.name = some 33 ∧
        (w.setAll settings).get? Field.register.name = some 5 := by
  obtain ⟨hdigits, hfields⟩ := digits_independent
  refine ⟨?_, ?_, ?_, ?_⟩
  · exact (hdigits 10).exchanged _ Field.address.range Field.opcode.range (.inl (by decide)) 42 33 (by decide)
      (by decide)
  · exact hfields.refused _ .register 10 (by decide)
  · exact (hfields.history _ _ .opcode).trans (by decide)
  · exact (hfields.history _ _ .register).trans (by decide)

end Drama
