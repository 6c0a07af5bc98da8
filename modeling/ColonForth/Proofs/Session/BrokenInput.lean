import ColonForth.Proofs.Session.Answers
import Mathlib.Data.List.Basic

/-! Sessions on input that breaks off. The bytes behind the last newline are lost. -/
namespace ColonForth
open Text
open ColonForth.Action

namespace Text

/-- The part is the longest beginning of the bytes that is empty or ends with a newline. -/
structure IsCompletePart (part bytes : List UInt8) : Prop where
  begins : part <+: bytes
  ended : part = [] ∨ part.getLast? = some newlineByte
  longest : ∀ other, other <+: bytes → other = [] ∨ other.getLast? = some newlineByte →
    other.length ≤ part.length

variable {part bytes : List UInt8}

theorem IsCompletePart.exists_tail (h : IsCompletePart part bytes) :
    ∃ tail, bytes = part ++ tail ∧ newlineByte ∉ tail := by
  obtain ⟨tail, rfl⟩ := h.begins
  refine ⟨tail, rfl, ?_⟩
  intro hmem
  obtain ⟨before, after, rfl⟩ := List.append_of_mem hmem
  -- Else the part could be drawn up to that newline.
  have hbegins : part ++ (before ++ [newlineByte]) <+: part ++ (before ++ newlineByte :: after) :=
    ⟨after, by simp⟩
  have hlength := h.longest _ hbegins (Or.inr (by simp))
  rw [List.length_append, List.length_append, List.length_singleton] at hlength
  omega

theorem isCompletePart_append {tail : List UInt8}
    (hended : part = [] ∨ part.getLast? = some newlineByte) (htail : newlineByte ∉ tail) :
    IsCompletePart part (part ++ tail) := by
  refine ⟨List.prefix_append part tail, hended, ?_⟩
  intro other hother hlast
  by_contra hlength
  obtain ⟨between, rfl⟩ : part <+: other :=
    List.prefix_of_prefix_length_le (List.prefix_append part tail) hother (by omega)
  -- What `other` has behind the part is in the tail, the newline at its end for one.
  have hbetween : between <+: tail := (List.prefix_append_right_inj part).mp hother
  rcases List.eq_nil_or_concat' between with rfl | ⟨init, byte, rfl⟩
  · rw [List.append_nil] at hlength
    exact hlength (Nat.le_refl part.length)
  · obtain rfl : byte = newlineByte := by simpa using hlast
    exact htail (hbetween.subset (List.mem_append_right init List.mem_cons_self))

theorem IsCompletePart.self (h : IsCompletePart part bytes) : IsCompletePart part part := by
  have hpart : IsCompletePart part (part ++ []) := isCompletePart_append h.ended List.not_mem_nil
  rwa [List.append_nil] at hpart

theorem existsUnique_isCompletePart (bytes : List UInt8) : ∃! part, IsCompletePart part bytes := by
  have hended : (cutLines bytes).1.flatten = [] ∨
      (cutLines bytes).1.flatten.getLast? = some newlineByte := by
    rcases List.eq_nil_or_concat' (cutLines bytes).1 with hnil | ⟨init, line, hlines⟩
    · rw [hnil]
      exact Or.inl rfl
    · have hline : line ∈ (cutLines bytes).1 := by simp [hlines]
      obtain ⟨body, rfl, -⟩ := exists_of_mem_cutLines hline
      right
      simp [hlines]
  have hpart := isCompletePart_append hended (newline_not_mem_tail bytes)
  rw [flatten_cutLines] at hpart
  refine ⟨_, hpart, ?_⟩
  intro other hother
  have hle := hpart.longest other hother.begins hother.ended
  have hle' := hother.longest _ hpart.begins hpart.ended
  have hbegins := List.prefix_of_prefix_length_le hother.begins hpart.begins hle
  exact hbegins.eq_of_length (Nat.le_antisymm hle hle')

end Text

/-- The lines of input that breaks off are the lines of its complete part. -/
theorem Input.lines_broken {part bytes : List UInt8} (h : IsCompletePart part bytes)
    (reason : String) : Input.lines ⟨bytes, .broken reason⟩ = Input.lines ⟨part, .endOfInput⟩ := by
  obtain ⟨tail, rfl, htail⟩ := h.exists_tail
  have hlost : Input.lines ⟨tail, .broken reason⟩ = [] := by
    simp only [Input.lines, cutLines_of_newline_notMem htail]
  rw [Input.lines_append (Text.cutLines_snd_eq_nil h.ended), hlost, List.append_nil]

namespace Session

variable {m last : Machine} {answers : List Answer} {ending : SessionEnd}

/-- The failure of the read shows behind the last answer, unless `bye` kept the session from it. -/
theorem Answers.run_of_broken {bytes : List UInt8} {reason : String}
    (h : Answers m (Input.lines ⟨bytes, .broken reason⟩) answers last ending) (echo : Bool) :
    (Session.run echo ⟨bytes, .broken reason⟩).run m .endless =
      ⟨last, .endless, answers.flatMap (Answer.shown echo),
        if ending = .bye then .ok .bye else .error (.io reason)⟩ := by
  have hlines := h.run_lines echo
  have hfinish : (finish (.broken reason) ending.flow).run last .endless =
      ⟨last, .endless, [], if ending = .bye then .ok .bye else .error (.io reason)⟩ := by
    cases ending <;> rfl
  rw [run_eq, run_bind_of_ok (by rw [hlines]), hlines]
  simp only [hfinish, List.append_nil]

/-- A session whose input breaks off is the session on the complete part of the input. It gives the
lines of that part the same answers and leaves the same machine, and the failure of the read ends it
where the other session comes to the end of its input. What stands behind the part does not matter
to any machine or outlet. -/
theorem run_broken (echo : Bool) (m : Machine) (bytes : List UInt8) (reason : String) :
    (∃! part, IsCompletePart part bytes) ∧ ∀ part, IsCompletePart part bytes →
      let lines := Input.lines ⟨part, .endOfInput⟩
      let whole := (run echo ⟨part, .endOfInput⟩).run m .endless
      let broken := (run echo ⟨bytes, .broken reason⟩).run m .endless
      broken.written = whole.written ∧ broken.machine = whole.machine ∧
        (whole.result = .ok .endOfInput ∧ broken.result = .error (.io reason) ∨
          whole.result = .ok .bye ∧ broken.result = .ok .bye) ∧
        run echo ⟨bytes, .broken reason⟩ = run echo ⟨part, .broken reason⟩ ∧
        AreLinesOf lines part ∧ ∃ answers ending, Answers m lines answers broken.machine ending ∧
          whole.result = .ok ending ∧
          (∃ behind, lines = answers.map Answer.raw ++ behind ∧
            (ending = .endOfInput → behind = [])) ∧
          broken.written = answers.flatMap (Answer.shown echo) := by
  refine ⟨existsUnique_isCompletePart bytes, ?_⟩
  intro part hpart lines whole broken
  have hlines : Input.lines ⟨bytes, .broken reason⟩ = lines := Input.lines_broken hpart reason
  have hself : Input.lines ⟨part, .broken reason⟩ = lines :=
    Input.lines_broken hpart.self reason
  obtain ⟨answers, last, ending, hanswers⟩ : ∃ answers last ending,
      Answers m lines answers last ending := exists_answers m lines
  have hwhole : whole = _ := hanswers.run rfl echo
  have hbroken : broken = _ := Answers.run_of_broken (hlines.symm ▸ hanswers) echo
  rw [hwhole, hbroken]
  refine ⟨rfl, rfl, ?_, ?_, areLinesOf_lines part, answers, ending, hanswers, rfl,
    hanswers.exists_behind, rfl⟩
  · cases ending with
    | endOfInput => exact Or.inl ⟨rfl, rfl⟩
    | bye => exact Or.inr ⟨rfl, rfl⟩
  · simp only [run_eq, hlines, hself]

/-- The `bye` of the tail is not said, although all its characters were read. -/
example : (run true ⟨Utf8.encode "1\n: x 2 ; . bye", .broken "lost"⟩).run (.fresh 64) .endless =
    ⟨⟨⟨[1]⟩, .seeded, 64⟩, .endless, Utf8.encode "\x1b[1A\x1b[2C ok\n", .error (.io "lost")⟩ := by
  rw [run_eq]
  rfl

end Session

end ColonForth
