import ColonForth.Proofs.Session.Transcript

/-! Sessions on input that comes in parts. Between two lines a session keeps nothing but the machine
and the outlet. -/
namespace ColonForth
open Text
open ColonForth.Action

theorem Text.cutLines_snd_eq_nil {bytes : List UInt8}
    (h : bytes = [] ∨ bytes.getLast? = some newlineByte) : (cutLines bytes).2 = [] := by
  by_contra hopen
  obtain ⟨last, hlast⟩ := Option.ne_none_iff_exists'.mp (mt List.getLast?_eq_none_iff.mp hopen)
  have hbytes : bytes.getLast? = some last := by
    rw [← flatten_cutLines bytes, List.getLast?_append, hlast]
    rfl
  rcases h with rfl | h
  · cases hbytes
  · obtain rfl := Option.some.inj (hbytes.symm.trans h)
    exact newline_not_mem_tail bytes (List.mem_of_getLast? hlast)

theorem Input.lines_append {xs : List UInt8} (h : (cutLines xs).2 = []) (ys : List UInt8)
    (ending : Ending) :
    Input.lines ⟨xs ++ ys, ending⟩ = Input.lines ⟨xs, .endOfInput⟩ ++ Input.lines ⟨ys, ending⟩ := by
  have hfirst : Input.lines ⟨xs, .endOfInput⟩ = (cutLines xs).1 := by
    simp [Input.lines, h]
  rw [hfirst]
  cases ending with
  | broken reason => simp only [Input.lines, cutLines_append h]
  | endOfInput =>
    simp only [Input.lines, cutLines_append h]
    split
    · rfl
    · rw [List.append_assoc]

/-- What the lines of a session have come to that has ended so. -/
def SessionEnd.flow : SessionEnd → Flow
  | .endOfInput => .proceed
  | .bye => .bye

namespace Session

variable {echo : Bool} {input : Input} {ending : SessionEnd} {m : Machine} {o : Outlet}

/-- Behind its last line a session that ends well does nothing that can be seen. -/
theorem run_finish_of_ok {last : Ending} {flow : Flow}
    (h : ((finish last flow).run m o).result = .ok ending) :
    flow = ending.flow ∧ (finish last flow).run m o = ⟨m, o, [], .ok ending⟩ := by
  cases flow with
  | bye =>
    cases h
    exact ⟨rfl, rfl⟩
  | proceed =>
    cases last with
    | broken reason => cases h
    | endOfInput =>
      unfold finish at h ⊢
      cases hflush : (flush.run m o).result with
      | error e =>
        rw [run_bind_of_error hflush] at h
        cases h
      | ok value =>
        rw [run_bind_of_ok hflush] at h ⊢
        rw [run_flush_of_idle (idle_of_run_flush hflush)] at h ⊢
        cases h
        exact ⟨rfl, rfl⟩

theorem run_lines_of_run (h : ((run echo input).run m o).result = .ok ending) :
    let done := (run echo input).run m o
    (untilBye (takeLine echo) input.lines).run m o =
      ⟨done.machine, done.outlet, done.written, .ok ending.flow⟩ := by
  rw [run_eq] at h ⊢
  intro done
  cases hlines : ((untilBye (takeLine echo) input.lines).run m o).result with
  | error e =>
    rw [run_bind_of_error hlines] at h
    cases h
  | ok flow =>
    rw [run_bind_of_ok hlines] at h
    obtain ⟨rfl, hfinish⟩ := run_finish_of_ok h
    have hdone : done = _ := run_bind_of_ok hlines
    rw [hdone, hfinish]
    simp only [List.append_nil]
    rw [← hlines]

/-- More input behind a complete line is taken by a session of its own, unless `bye` was said. -/
theorem run_append_eq (echo : Bool) {xs : List UInt8} (h : (cutLines xs).2 = []) (ys : List UInt8)
    (last : Ending) :
    run echo ⟨xs ++ ys, last⟩ =
      untilBye (takeLine echo) (Input.lines ⟨xs, .endOfInput⟩) >>= fun flow =>
        match flow with
        | .bye => pure .bye
        | .proceed => run echo ⟨ys, last⟩ := by
  rw [run_eq, Input.lines_append h, untilBye_append, bind_assoc]
  congr 1
  funext flow
  cases flow with
  | bye => rfl
  | proceed => exact (run_eq echo ⟨ys, last⟩).symm

/-- A session that nothing is refused to ends with `bye` or at the end of its input. -/
theorem tells_run_ok (echo : Bool) (bytes : List UInt8) :
    (run echo ⟨bytes, .endOfInput⟩).Tells (fun _ => True)
      fun _ result => ∃ ending, result = .ok ending := by
  have hlines : (untilBye (takeLine echo) (Input.lines ⟨bytes, .endOfInput⟩)).Tells (fun _ => True)
      fun _ result => ∃ flow, result = .ok flow := by
    apply tells_untilBye ⟨.proceed, rfl⟩
    · intro raw _
      apply tells_takeLine_of (tells_interpretLine_ok _)
      · intro text e h
        obtain ⟨flow, hflow⟩ := h
        cases hflow
      · intro s text result _ h
        exact h
    · intro text later result _ hlater
      exact hlater
  rw [run_eq]
  apply hlines.bind
  · intro text e h
    obtain ⟨flow, hflow⟩ := h
    cases hflow
  · intro text flow _
    cases flow with
    | bye => exact tells_pure ⟨.bye, rfl⟩
    | proceed =>
      apply tells_flush.bind
      · intro said e h
        cases h.2
      · intro said value _
        exact tells_pure ⟨.endOfInput, rfl⟩

/-- Input that ends with a newline may be followed by more. If the session on it comes to its end,
the session on all goes on as a session on the rest does on the machine and the outlet that are left
by then. If it ends with `bye`, the rest does not matter. If nothing is refused it ends in one of
these two ways. -/
theorem run_append (echo : Bool) {xs : List UInt8} (h : xs = [] ∨ xs.getLast? = some newlineByte)
    (m : Machine) (o : Outlet) :
    let first := (run echo ⟨xs, .endOfInput⟩).run m o
    (∀ (ys : List UInt8) (last : Ending),
      let whole := (run echo ⟨xs ++ ys, last⟩).run m o
      (first.result = .ok .endOfInput →
        let rest := (run echo ⟨ys, last⟩).run first.machine first.outlet
        whole = ⟨rest.machine, rest.outlet, first.written ++ rest.written, rest.result⟩) ∧
      (first.result = .ok .bye → whole = first)) ∧
      (o = .endless → first.outlet = .endless ∧
        (first.result = .ok .endOfInput ∨ first.result = .ok .bye)) := by
  intro first
  refine ⟨fun ys last => ⟨?_, ?_⟩, ?_⟩
  · intro hfirst
    have hlines := run_lines_of_run hfirst
    have hflow := congrArg Outcome.result hlines
    rw [run_append_eq echo (Text.cutLines_snd_eq_nil h), run_bind_of_ok hflow, hlines]
    rfl
  · intro hfirst
    have hlines := run_lines_of_run hfirst
    have hflow := congrArg Outcome.result hlines
    have hwhole : (run echo ⟨xs ++ ys, last⟩).run m o =
        ⟨first.machine, first.outlet, first.written ++ [], .ok .bye⟩ := by
      rw [run_append_eq echo (Text.cutLines_snd_eq_nil h), run_bind_of_ok hflow, hlines]
      rfl
    rw [hwhole, List.append_nil, ← hfirst]
  · rintro rfl
    obtain ⟨here, text, result, hrun, -, ending, rfl⟩ := tells_run_ok echo xs m trivial
    have hfirst : first = _ := hrun
    rw [hfirst]
    cases ending with
    | endOfInput => exact ⟨rfl, Or.inl rfl⟩
    | bye => exact ⟨rfl, Or.inr rfl⟩

theorem run_append_print :
    let first := Utf8.encode "3\n"
    let second := Utf8.encode ". bye\n"
    first.getLast? = some newlineByte ∧ second.getLast? = some newlineByte ∧
      (run false ⟨first ++ second, .endOfInput⟩).run (.fresh 64) .endless =
        ⟨.fresh 64, .endless, Utf8.encode " ok\n3", .ok .bye⟩ ∧
      (run false ⟨second ++ [0xFF], .broken "lost"⟩).run ⟨⟨[3]⟩, .seeded, 64⟩ .endless =
        ⟨.fresh 64, .endless, Utf8.encode "3", .ok .bye⟩ := by
  intro first second
  have hfirst : first.getLast? = some newlineByte := by decide
  have hsecond : second.getLast? = some newlineByte := by decide
  have hended : (run false ⟨first, .endOfInput⟩).run (.fresh 64) .endless =
      ⟨⟨⟨[3]⟩, .seeded, 64⟩, .endless, Utf8.encode " ok\n", .ok .endOfInput⟩ := by
    rw [run_eq]
    rfl
  have hbye : (run false ⟨second, .endOfInput⟩).run ⟨⟨[3]⟩, .seeded, 64⟩ .endless =
      ⟨.fresh 64, .endless, Utf8.encode "3", .ok .bye⟩ := by
    rw [run_eq]
    rfl
  refine ⟨hfirst, hsecond, ?_, ?_⟩
  · have hwhole := ((run_append false (Or.inr hfirst) (.fresh 64) .endless).1 second .endOfInput).1
      (congrArg Outcome.result hended)
    rw [hended, hbye] at hwhole
    exact hwhole
  · have hwhole := ((run_append false (Or.inr hsecond) ⟨⟨[3]⟩, .seeded, 64⟩ .endless).1 [0xFF]
      (.broken "lost")).2 (congrArg Outcome.result hbye)
    rw [hbye] at hwhole
    exact hwhole

end Session

end ColonForth
