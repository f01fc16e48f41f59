-- SUMMARY: Nested saving and calling gives back what was saved, and restores the stack register.
import Drama.Proofs.Machine.Stack

/-!
# The discipline of the stack

A command that saves a register or calls a subroutine opens a pair, which loading a register or returning
closes. In a sequence where pairs are nested and nothing else touches the stack, each closing command
finds the word that its opening command has put there. What lies below the top of the stack may be
overwritten, but only as many cells as pairs are open at once.
-/

namespace Drama

/-! ## Nested pairs -/

/-- The first command puts a word on the stack that the second takes from it. -/
inductive Command.Pair : Command → Command → Prop
  | saving {push pop : Command} {r s : Int} (hpush : push.Is "BST" (.register r))
      (hr : r ≠ stackRegister) (hpop : pop.Is "HST" (.register s)) (hs : s ≠ stackRegister) :
      Pair push pop
  | calling {call ret : Command} {mode : AddressingMode} {o : Operand}
      (hcall : call.Is "SBR" (.address mode o)) (ho : o.LeavesStack) (hret : ret.Is "KTG" .nullary) :
      Pair call ret

/-- Sequences of quiet commands and nested pairs, of which never more than `depth` are open at once. -/
inductive WellNested : (depth : Nat) → List Command → Prop
  | nil {depth : Nat} : WellNested depth []
  | quiet {depth : Nat} {c : Command} {rest : List Command} (h : c.Quiet)
      (hrest : WellNested depth rest) : WellNested depth (c :: rest)
  | pair {depth : Nat} {opening closing : Command} {inner rest : List Command}
      (h : opening.Pair closing) (hinner : WellNested depth inner)
      (hrest : WellNested (depth + 1) rest) :
      WellNested (depth + 1) (opening :: inner ++ closing :: rest)

theorem Command.Pair.valid {opening closing : Command} (h : opening.Pair closing) :
    opening.Valid ∧ closing.Valid := by
  cases h with
  | saving hpush _ hpop => exact ⟨hpush.valid, hpop.valid⟩
  | calling hcall _ hret => exact ⟨hcall.valid, hret.valid⟩

theorem Command.Pair.execute_opening {opening closing : Command} (h : opening.Pair closing)
    (m : Machine) : ∃ m' w, (Machine.execute .standard opening).run m = .ok () m' ∧ m.Pushed m' w := by
  cases h with
  | saving hpush hr =>
    obtain ⟨m', hrun, hpushed⟩ := Machine.execute_push hpush hr m
    exact ⟨m', _, hrun, hpushed⟩
  | calling hcall ho =>
    obtain ⟨m', hrun, hpushed⟩ := Machine.execute_call hcall ho m
    exact ⟨m', _, hrun, hpushed⟩

theorem Command.Pair.execute_closing {opening closing : Command} (h : opening.Pair closing)
    (m : Machine) : ∃ m', (Machine.execute .standard closing).run m = .ok () m' ∧ m.Popped m' := by
  cases h with
  | saving _ _ hpop hs =>
    obtain ⟨m', hrun, hpopped, -⟩ := Machine.execute_pop hpop hs m
    exact ⟨m', hrun, hpopped⟩
  | calling _ _ hret =>
    obtain ⟨m', hrun, hpopped, -⟩ := Machine.execute_ret hret m
    exact ⟨m', hrun, hpopped⟩

/-! ## Sequences of commands -/

namespace Machine

/-- Executes commands one after the other. -/
def executeAll (commands : List Command) : MachineM Unit := forM commands (execute .standard)

theorem executeAll_cons {c : Command} {rest : List Command} {m m' m'' : Machine}
    (h : (execute .standard c).run m = .ok () m') (hrest : (executeAll rest).run m' = .ok () m'') :
    (executeAll (c :: rest)).run m = .ok () m'' := by
  rw [executeAll, List.forM_cons]
  exact (run_bind h _).trans hrest

theorem executeAll_append {first second : List Command} {m m' m'' : Machine}
    (hfirst : (executeAll first).run m = .ok () m')
    (hsecond : (executeAll second).run m' = .ok () m'') :
    (executeAll (first ++ second)).run m = .ok () m'' := by
  rw [executeAll, List.forM_append]
  exact (run_bind hfirst _).trans hsecond

/-- Valid commands are executed without a fault. -/
theorem executeAll_valid {commands : List Command} (h : ∀ c ∈ commands, c.Valid) (m : Machine) :
    ∃ m', (executeAll commands).run m = .ok () m' := by
  induction commands generalizing m with
  | nil => exact ⟨m, rfl⟩
  | cons c rest ih =>
    have hc : c.Valid := h c List.mem_cons_self
    obtain ⟨n, hnative, -, -⟩ := hc.exists_native
    obtain ⟨m', hrest⟩ := ih (fun d hd => h d (List.mem_cons_of_mem _ hd)) (m.executed n)
    exact ⟨m', executeAll_cons (execute_run hc hnative m) hrest⟩

end Machine

namespace WellNested

variable {depth : Nat} {commands : List Command}

theorem valid (h : WellNested depth commands) : ∀ c ∈ commands, c.Valid := by
  induction h with
  | nil => exact List.forall_mem_nil _
  | quiet h _ ih => exact List.forall_mem_cons.2 ⟨h.valid, ih⟩
  | pair h _ _ ihinner ihrest =>
    obtain ⟨hopening, hclosing⟩ := h.valid
    exact List.forall_mem_append.2
      ⟨List.forall_mem_cons.2 ⟨hopening, ihinner⟩, List.forall_mem_cons.2 ⟨hclosing, ihrest⟩⟩

/-- A nested sequence restores the stack register, and overwrites no more cells than it opens pairs. -/
theorem keepsStack (h : WellNested depth commands) (m : Machine) :
    ∃ m', (Machine.executeAll commands).run m = .ok () m' ∧ m.KeepsStack depth m' := by
  induction h generalizing m with
  | nil => exact ⟨m, rfl, .refl⟩
  | quiet h _ ih =>
    obtain ⟨m₁, hrun, hregister, hmemory⟩ := Machine.execute_quiet h m
    obtain ⟨m₂, hrest, hkeeps⟩ := ih m₁
    exact ⟨m₂, Machine.executeAll_cons hrun hrest, .trans (.of_memory_eq hregister hmemory) hkeeps⟩
  | pair h _ _ ihinner ihrest =>
    obtain ⟨m₁, w, hopening, hpushed⟩ := h.execute_opening m
    obtain ⟨m₂, hinner, hkeeps⟩ := ihinner m₁
    obtain ⟨m₃, hclosing, hpopped⟩ := h.execute_closing m₂
    obtain ⟨m₄, hrest, hkeeps'⟩ := ihrest m₃
    refine ⟨m₄, ?_, (hpushed.keepsStack hkeeps hpopped).trans hkeeps'⟩
    exact Machine.executeAll_append (Machine.executeAll_cons hopening hinner)
      (Machine.executeAll_cons hclosing hrest)

/-- Where a closing command stands among other commands: inside what precedes one of them, in its place,
or after it. -/
private theorem split_append {inner rest front after : List Command} {c d : Command}
    (h : inner ++ c :: rest = front ++ d :: after) :
    (∃ inner', inner = front ++ d :: inner') ∨ (front = inner ∧ d = c) ∨
      ∃ before, front = inner ++ c :: before ∧ rest = before ++ d :: after := by
  obtain ⟨middle, hfront, hrest⟩ | ⟨middle, hinner, hafter⟩ := List.append_eq_append_iff.1 h
  · cases middle with
    | nil =>
      cases hrest
      exact .inr (.inl ⟨hfront.trans (List.append_nil _), rfl⟩)
    | cons e middle =>
      cases hrest
      exact .inr (.inr ⟨middle, hfront, rfl⟩)
  · cases middle with
    | nil =>
      cases hafter
      exact .inr (.inl ⟨(hinner.trans (List.append_nil _)).symm, rfl⟩)
    | cons e middle =>
      cases hafter
      exact .inl ⟨middle, hinner⟩

/-- Each closing command has an opening one before it, with a nested sequence in between. -/
theorem exists_opening (h : WellNested depth commands) {front after : List Command}
    {closing : Command} (hcommands : commands = front ++ closing :: after)
    (hcloses : closing.instruction.mnemonic ∈ ["HST", "KTG"]) :
    ∃ before opening inner, front = before ++ opening :: inner ∧ opening.Pair closing ∧
      ∃ depth' < depth, WellNested depth' inner := by
  induction h generalizing front after with
  | nil => simp at hcommands
  | quiet h _ ih =>
    cases front with
    | nil =>
      cases hcommands
      have hquiet : ∀ mnemonic ∈ quietMnemonics, mnemonic ∉ ["HST", "KTG"] := by decide
      exact absurd hcloses (hquiet _ h.quiet)
    | cons d front =>
      cases hcommands
      obtain ⟨before, opening, inner, rfl, hrest⟩ := ih rfl
      exact ⟨_ :: before, opening, inner, rfl, hrest⟩
  | @pair depth opening closing' inner rest h hinner _ ihinner ihrest =>
    rw [List.cons_append] at hcommands
    cases front with
    | nil =>
      obtain ⟨rfl, -⟩ := List.cons.inj hcommands
      have hopens : opening.instruction.mnemonic ∈ ["BST", "SBR"] := by
        cases h with
        | saving hpush => simp [hpush.mnemonic_eq]
        | calling hcall => simp [hcall.mnemonic_eq]
      have hdisjoint : ∀ mnemonic ∈ ["BST", "SBR"], mnemonic ∉ ["HST", "KTG"] := by decide
      exact absurd hcloses (hdisjoint _ hopens)
    | cons c front =>
      obtain ⟨rfl, htail⟩ := List.cons.inj hcommands
      obtain ⟨inner', hinside⟩ | ⟨rfl, rfl⟩ | ⟨front', rfl, hafter⟩ := split_append htail
      · obtain ⟨before, opening', inner'', rfl, hpair, depth', hlt, hnested⟩ := ihinner hinside
        exact ⟨opening :: before, opening', inner'', rfl, hpair, depth', by omega, hnested⟩
      · exact ⟨[], opening, front, rfl, h, depth, by omega, hinner⟩
      · obtain ⟨before, opening', inner'', rfl, hrest⟩ := ihrest hafter
        refine ⟨opening :: inner ++ closing' :: before, opening', inner'', ?_, hrest⟩
        simp

end WellNested

/-- A well-nested sequence of at most as many open pairs as there are addresses is executed without a fault
and restores the stack register. Each load from the stack gives the word that the matching command has
saved there, and each return leads back to where the matching call was made. -/
theorem stack_discipline {commands : List Command} (h : WellNested addressSpace commands)
    (m : Machine) :
    ∃ m', (Machine.executeAll commands).run m = .ok () m' ∧
      m'.register stackRegister = m.register stackRegister ∧
      ∀ front closing after, commands = front ++ closing :: after →
        closing.instruction.mnemonic ∈ ["HST", "KTG"] →
        ∃ before opening inner m₁ m₂ m₃ m₄, front = before ++ opening :: inner ∧
          (∃ depth, WellNested depth inner) ∧
          (Machine.executeAll before).run m = .ok () m₁ ∧
          (Machine.execute .standard opening).run m₁ = .ok () m₂ ∧
          (Machine.executeAll inner).run m₂ = .ok () m₃ ∧
          (Machine.execute .standard closing).run m₃ = .ok () m₄ ∧
          (∀ s, closing.Is "HST" (.register s) → ∃ r, opening.Is "BST" (.register r) ∧
            m₂.top = m₁.register r ∧ m₄.register s = m₁.register r) ∧
          (closing.Is "KTG" .nullary → ∃ mode o, opening.Is "SBR" (.address mode o) ∧
            m₂.top = m₁.pc.toMachine ∧ m₄.pc = m₁.pc) := by
  obtain ⟨m', hrun, hkeeps⟩ := h.keepsStack m
  refine ⟨m', hrun, hkeeps.register, ?_⟩
  rintro front closing after hcommands hcloses
  obtain ⟨before, opening, inner, rfl, hpair, depth, hlt, hinner⟩ :=
    h.exists_opening hcommands hcloses
  have hbefore : ∀ c ∈ before, c.Valid := fun c hc => h.valid c (by simp [hcommands, hc])
  obtain ⟨m₁, hrun₁⟩ := Machine.executeAll_valid hbefore m
  cases hpair with
  | saving hpush hr hpop hs =>
    obtain ⟨m₂, hrun₂, hpushed⟩ := Machine.execute_push hpush hr m₁
    obtain ⟨m₃, hrun₃, hkeeps₃⟩ := hinner.keepsStack m₂
    obtain ⟨m₄, hrun₄, -, hloaded⟩ := Machine.execute_pop hpop hs m₃
    refine ⟨before, opening, inner, m₁, m₂, m₃, m₄, rfl, ⟨depth, hinner⟩, hrun₁, hrun₂, hrun₃, hrun₄,
      fun s' hpop' => ⟨_, hpush, hpushed.top_eq, ?_⟩, fun hret => ?_⟩
    · cases hpop.operands_eq.symm.trans hpop'.operands_eq
      rw [hloaded, hkeeps₃.top_eq hlt, hpushed.top_eq]
    · cases hpop.operands_eq.symm.trans hret.operands_eq
  | calling hcall ho hret =>
    obtain ⟨m₂, hrun₂, hpushed⟩ := Machine.execute_call hcall ho m₁
    obtain ⟨m₃, hrun₃, hkeeps₃⟩ := hinner.keepsStack m₂
    obtain ⟨m₄, hrun₄, -, hpc⟩ := Machine.execute_ret hret m₃
    refine ⟨before, opening, inner, m₁, m₂, m₃, m₄, rfl, ⟨depth, hinner⟩, hrun₁, hrun₂, hrun₃, hrun₄,
      fun s' hpop => ?_, fun _ => ⟨_, _, hcall, hpushed.top_eq, ?_⟩⟩
    · cases hret.operands_eq.symm.trans hpop.operands_eq
    · rw [hpc, hkeeps₃.top_eq hlt, hpushed.top_eq, Word.toAddress_toMachine]

/-- A word is saved and loaded again around a load into its register, with the stack register at zero. -/
theorem stack_discipline_of_zero_stack :
    ∃ push load pop : Command, push.Is "BST" (.register 1) ∧ load.destination? = some 1 ∧
      pop.Is "HST" (.register 2) ∧ WellNested addressSpace [push, load, pop] ∧
      ∃ m m' : Machine, m.register stackRegister = Word.zero ∧ m.register 1 = Word.wrap 7 ∧
        (Machine.executeAll [push, load, pop]).run m = .ok () m' ∧
        m'.register stackRegister = Word.zero ∧ m'.register 2 = Word.wrap 7 := by
  let push : Command :=
    ⟨⟨"BST", .ofList [.register], false, .derived (.stack "BIG" .preDecrement) none⟩, .register 1⟩
  let load : Command :=
    ⟨⟨"HIA", .ofList [.registers, .registerAddress], false, .coded 11 .load none⟩,
      .registerAddress 1 .value ⟨5, none⟩⟩
  let pop : Command :=
    ⟨⟨"HST", .ofList [.register], false, .derived (.stack "HIA" .postIncrement) none⟩, .register 2⟩
  have hpush : push.Is "BST" (.register 1) :=
    ⟨by decide, rfl, rfl⟩
  have hload : load.Quiet :=
    ⟨by decide, by decide, by decide, by
      rintro o ⟨⟩ index hindex
      cases hindex⟩
  have hpop : pop.Is "HST" (.register 2) :=
    ⟨by decide, rfl, rfl⟩
  have hinner : WellNested 9999 [load] := .quiet hload .nil
  have hnested : WellNested addressSpace ([push] ++ [load] ++ [pop]) :=
    .pair (.saving hpush (by decide) hpop (by decide)) hinner .nil
  refine ⟨push, load, pop, hpush, rfl, hpop, hnested,
    (Machine.empty.setRegister stackRegister Word.zero).setRegister 1 (Word.wrap 7), ?_⟩
  obtain ⟨m', hrun, hregister, hpairs⟩ := stack_discipline hnested
    ((Machine.empty.setRegister stackRegister Word.zero).setRegister 1 (Word.wrap 7))
  obtain ⟨before, opening, inner, m₁, m₂, m₃, m₄, hfront, -, hrun₁, hrun₂, hrun₃, hrun₄, hloaded, -⟩ :=
    hpairs [push, load] pop [] rfl (by decide)
  obtain ⟨r, hopening, -, hword⟩ := hloaded 2 hpop
  refine ⟨m', by decide, by decide, hrun, hregister.trans (by decide), ?_⟩
  cases before with
  | nil =>
    cases hfront
    cases hrun₁
    cases hopening.operands_eq
    have hlast : (Machine.executeAll [pop]).run m₃ = .ok () m₄ := Machine.executeAll_cons hrun₄ rfl
    cases hrun.symm.trans (Machine.executeAll_append (Machine.executeAll_cons hrun₂ hrun₃) hlast)
    exact hword.trans (by decide)
  | cons c before =>
    cases before with
    | nil =>
      cases hfront
      exact absurd hopening.mnemonic_eq (by decide)
    | cons => simp at hfront

end Drama
