import ValkeyLuajit.Script.Residue

/-!
# Numbers as arguments of commands

A whole number reaches the server as its numeral, however large it is, as long as half the
range of a `long long` holds it.
-/

namespace ValkeyLuajit

open Lua

section

variable {rt : Runtime} {fpconv : Number → Bytes}

/-- A whole number is given to `ll2string`. -/
theorem argumentText_whole {d : Int} (fits : |d| ≤ (2 ^ 63 - 1) / 2) :
    argumentText fpconv (.number (.finite d)) = some (numeral d) := by
  obtain ⟨lower, upper⟩ := abs_le.mp fits
  have lower' : -(2 : Rat) ^ 62 ≤ d := by
    have bound : -(2 : Int) ^ 62 ≤ d := by omega
    exact_mod_cast bound
  have upper' : (d : Rat) ≤ 2 ^ 62 := by
    have bound : d ≤ (2 : Int) ^ 62 := by omega
    exact_mod_cast bound
  have converted : double2ll (.finite d) = some d := by
    rw [double2ll, if_pos ⟨lower', upper', Rat.den_intCast d⟩, Rat.num_intCast]
  have same : (Int64.ofInt d).toInt = d := Int64.toInt_ofInt_of_le (by omega) (by omega)
  rw [argumentText, converted]
  simp only [ll2stringText_eq, same]

/-- Every argument gives the text at its place. -/
theorem argumentTexts_getElem? {arguments : List Value}
    (convertible : ∀ argument ∈ arguments, argument.isString) (j : Nat) :
    (argumentTexts fpconv arguments)[j]? = arguments[j]?.bind (argumentText fpconv) := by
  induction arguments generalizing j with
  | nil => rfl
  | cons argument rest inductionHypothesis =>
      have known := argumentText_isSome fpconv argument
      rw [convertible argument List.mem_cons_self, Option.isSome_iff_exists] at known
      obtain ⟨text, found⟩ := known
      have tail := inductionHypothesis fun other member =>
        convertible other (List.mem_cons_of_mem _ member)
      rw [argumentTexts, found]
      cases j with
      | zero => exact found.symm
      | succ j => exact tail j

theorem numberStrings_texts (first : Nat) (texts : List Bytes) :
    (numberStrings first texts).map ModuleString.text = texts := by
  induction texts generalizing first with
  | nil => rfl
  | cons text rest inductionHypothesis => simp [numberStrings, inductionHypothesis]

end

/-- Whole numbers are passed as their numerals. `ll2string` writes the numeral of every
`long long` and a NUL where the buffer has room for both, answers 0 where it has not, and
stays inside in any case. `digits10` counts the digits of every 64-bit number. -/
theorem number_arguments_exact (rt : Runtime) (fpconv : Number → Bytes) :
    (∀ world : World CommandHost, world.frame ≠ [] →
      (∀ argument ∈ world.frame, argument.isString) →
        ∃ argv final, luajitArgsToServerArgv rt fpconv world = .done (some argv) final ∧
          argv.length = world.frame.length ∧ ∀ (j : Nat) (d : Int), |d| ≤ (2 ^ 63 - 1) / 2 →
            world.frame.reverse[j]? = some (.number (.finite d)) →
              argv[j]?.map ModuleString.text = some (numeral d)) ∧
      (∀ (dst : Block) (v : Int64), ∃ answer, ll2string dst v = some answer ∧
        WritesText (numeral v.toInt) dst answer) ∧
      ∀ v : UInt64, digits10 v = (natNumeral v.toNat).length := by
  refine ⟨?_, ll2string_writes, digits10_eq⟩
  rintro ⟨frame, base, breached, lua, host, calls⟩ nonempty convertible
  have all : (argumentTexts fpconv frame.reverse).length = frame.length := by
    rw [← @List.length_reverse _ frame]
    exact argumentTexts_length_eq_iff.mpr fun argument member =>
      convertible argument (List.mem_reverse.mp member)
  refine ⟨_, _, luajitArgsToServerArgv_converts rt fpconv frame base breached lua host calls
    nonempty convertible, by rw [numberStrings_length, all], fun j d fits here => ?_⟩
  rw [← List.getElem?_map, numberStrings_texts, argumentTexts_getElem? fun argument member =>
    convertible argument (List.mem_reverse.mp member), here]
  exact argumentText_whole fits

/-- The largest such number is passed as its nineteen digits. -/
theorem large_number_exact : ∃ argv final,
    luajitArgsToServerArgv .plain (fun _ => [])
        { commandStart with frame := [.number (.finite ((2 ^ 62 - 1 : Int) : Rat))] } =
      .done (some argv) final ∧
    argv[0]?.map ModuleString.text = some (numeral (2 ^ 62 - 1)) := by
  obtain ⟨passes, -⟩ := number_arguments_exact .plain fun _ => []
  have numbers : ∀ argument ∈ [Value.number (.finite ((2 ^ 62 - 1 : Int) : Rat))],
      argument.isString := by
    intro argument member
    rw [List.mem_singleton.mp member]
    rfl
  obtain ⟨argv, final, done, -, texts⟩ := passes
    { commandStart with frame := [.number (.finite ((2 ^ 62 - 1 : Int) : Rat))] }
    (List.cons_ne_nil _ _) numbers
  exact ⟨argv, final, done, texts 0 (2 ^ 62 - 1) (by decide) rfl⟩

end ValkeyLuajit
