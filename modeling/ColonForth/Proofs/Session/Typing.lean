import ColonForth.Program.Run
import ColonForth.Proofs.Session.Reading
import ColonForth.Proofs.Text.OneLine

/-! A session at a terminal does what a session without echo does on the lines that are typed. -/
namespace ColonForth
open Text
open ColonForth.Action

namespace Session

/-- The bytes of the lines, each ended by a newline. -/
def typedBytes (lines : List String) : List UInt8 :=
  Utf8.encode (String.join (lines.map (· ++ "\n")))

theorem typedBytes_cons (line : String) (lines : List String) :
    typedBytes (line :: lines) = Utf8.encode line ++ newlineByte :: typedBytes lines := by
  have hnewline : Utf8.encode "\n" = [newlineByte] := rfl
  simp [typedBytes, hnewline]

theorem takeLine_typed (line : String) :
    takeLine false (Utf8.encode line ++ [newlineByte]) = (do
      let flow ← interpretLine line
      flush
      pure flow) := by
  have hraw : Utf8.encode line ++ [newlineByte] = Utf8.encode (line ++ "\n") := by
    rw [Utf8.encode_append]
    rfl
  have hwords : words (line ++ "\n") = words line := by
    have hblank := words_append_blank (s := line) (t := "") isBlank_newline
    simpa using hblank
  simp only [takeLine, echoLine, hraw, Utf8.decodeLossy_encode, interpretLine_congr hwords,
    Bool.false_eq_true, if_false, pure_bind]

theorem answer_typed (line : String) :
    answer (.typed line) =
      takeLine false (Utf8.encode line ++ [newlineByte]) >>= fun flow =>
        match flow with
        | .bye => pure (some .bye)
        | .proceed => pure none := by
  rw [answer, takeLine_typed, bind_assoc]
  congr 1
  funext flow
  cases flow <;> simp

variable {m : Machine} {o : Outlet} {echo : Bool} {raw : List UInt8} {flow : Flow}

theorem idle_of_run_flushed {act : Action Flow}
    (h : ((act >>= fun flow => flush >>= fun _ => pure flow).run m o).result = .ok flow) :
    ((act >>= fun flow => flush >>= fun _ => pure flow).run m o).outlet.Idle := by
  cases hact : (act.run m o).result with
  | error e =>
    rw [run_bind_of_error hact] at h
    cases h
  | ok reached =>
    rw [run_bind_of_ok hact] at h ⊢
    generalize act.run m o = done at h ⊢
    cases hflush : (flush.run done.machine done.outlet).result with
    | error e =>
      rw [run_bind_of_error hflush] at h
      cases h
    | ok value =>
      have hidle := idle_of_run_flush hflush
      rw [run_bind_of_ok hflush, run_flush_of_idle hidle]
      exact hidle

/-- What was written in a turn has been flushed at its end. -/
theorem idle_takeLine (h : ((takeLine echo raw).run m o).result = .ok flow) :
    ((takeLine echo raw).run m o).outlet.Idle := by
  have htake : takeLine echo raw =
      (echoLine echo (Utf8.decodeLossy raw) >>= fun _ => interpretLine (Utf8.decodeLossy raw)) >>=
        fun flow => flush >>= fun _ => pure flow := by
    rw [takeLine, bind_assoc]
  rw [htake] at h ⊢
  exact idle_of_run_flushed h

theorem run_nil_of_idle (h : o.Idle) (m : Machine) :
    (run false ⟨[], .endOfInput⟩).run m o = ⟨m, o, [], .ok .endOfInput⟩ := by
  have hflush := run_flush_of_idle h m
  rw [run, loop_nil, finish, run_bind_of_ok (congrArg Outcome.result hflush), hflush]
  rfl

theorem run_typed_line {line : String} (h : '\n' ∉ line.toList) (lines : List String)
    (ending : Ending) :
    run false ⟨typedBytes (line :: lines), ending⟩ =
      takeLine false (Utf8.encode line ++ [newlineByte]) >>= fun flow =>
        match flow with
        | .bye => pure .bye
        | .proceed => run false ⟨typedBytes lines, ending⟩ := by
  rw [typedBytes_cons]
  exact run_line false (newlineByte_notMem_encode h) _ ending

theorem interact_typed_line (failure line : String) (signals : List Signal) :
    interact failure (.typed line :: signals) =
      takeLine false (Utf8.encode line ++ [newlineByte]) >>= fun flow =>
        match flow with
        | .bye => pure .bye
        | .proceed => interact failure signals := by
  rw [interact, answer_typed, bind_assoc]
  congr 1
  funext flow
  cases flow <;> rfl

/-- A terminal that fails behind the typed lines is like input that breaks off there. -/
theorem interact_unstopped (failure : String) {lines : List String}
    (h : ∀ line ∈ lines, '\n' ∉ line.toList) :
    interact failure (lines.map .typed) = run false ⟨typedBytes lines, .broken failure⟩ := by
  induction lines with
  | nil => exact (loop_tail false [] List.not_mem_nil (.broken failure)).symm
  | cons line lines ih =>
    obtain ⟨hline, hlines⟩ := List.forall_mem_cons.mp h
    rw [List.map_cons, interact_typed_line, run_typed_line hline, ih hlines]

/-- Lines are typed and then the session is stopped, with whatever may be behind that. This comes to
what the same lines come to as the input of a session without echo. -/
theorem interact_typed (failure : String) {lines : List String}
    (h : ∀ line ∈ lines, '\n' ∉ line.toList) {stop : Signal}
    (hstop : stop = .ctrlC ∨ stop = .ctrlD) (behind : List Signal) (m : Machine) {o : Outlet}
    (ho : o.Idle) :
    (interact failure (lines.map .typed ++ stop :: behind)).run m o =
      (run false ⟨typedBytes lines, .endOfInput⟩).run m o := by
  induction lines generalizing m o with
  | nil =>
    have hnil : (run false ⟨typedBytes [], .endOfInput⟩).run m o = _ := run_nil_of_idle ho m
    rw [hnil]
    rcases hstop with rfl | rfl <;> rfl
  | cons line lines ih =>
    obtain ⟨hline, hlines⟩ := List.forall_mem_cons.mp h
    rw [List.map_cons, List.cons_append, interact_typed_line, run_typed_line hline]
    cases htake : ((takeLine false (Utf8.encode line ++ [newlineByte])).run m o).result with
    | error e => rw [run_bind_of_error htake, run_bind_of_error htake]
    | ok flow =>
      rw [run_bind_of_ok htake, run_bind_of_ok htake]
      cases flow with
      | bye => rfl
      | proceed => simp only [ih hlines _ (idle_takeLine htake)]

theorem prompts_typed_line (line : String) (signals : List Signal) (m : Machine) (o : Outlet) :
    let done := (takeLine false (Utf8.encode line ++ [newlineByte])).run m o
    prompts (.typed line :: signals) m o =
      ⟨m.stack.size⟩ ::
        match done.result with
        | .ok .proceed => prompts signals done.machine done.outlet
        | _ => [] := by
  intro done
  rw [prompts, answer_typed]
  cases htake : done.result with
  | error e => rw [run_bind_of_error htake]
  | ok flow =>
    rw [run_bind_of_ok htake]
    cases flow <;> simp only [run_pure, done]

/-- A prompt stands behind the lines if the session on them has come to their end, and then it shows
how many cells they have left. -/
theorem prompts_typed {lines : List String} (h : ∀ line ∈ lines, '\n' ∉ line.toList)
    (signals : List Signal) (m : Machine) {o : Outlet} (ho : o.Idle) :
    let done := (run false ⟨typedBytes lines, .endOfInput⟩).run m o
    (prompts (lines.map .typed ++ signals) m o)[lines.length]? =
      match done.result with
      | .ok .endOfInput => some ⟨done.machine.stack.size⟩
      | _ => none := by
  induction lines generalizing m o with
  | nil =>
    have hnil : (run false ⟨typedBytes [], .endOfInput⟩).run m o = _ := run_nil_of_idle ho m
    rw [hnil]
    cases signals <;> rfl
  | cons line lines ih =>
    obtain ⟨hline, hlines⟩ := List.forall_mem_cons.mp h
    rw [List.map_cons, List.cons_append, prompts_typed_line, run_typed_line hline,
      List.length_cons, List.getElem?_cons_succ]
    cases htake : ((takeLine false (Utf8.encode line ++ [newlineByte])).run m o).result with
    | error e =>
      rw [run_bind_of_error htake]
      rfl
    | ok flow =>
      rw [run_bind_of_ok htake]
      cases flow with
      | bye => rfl
      | proceed => exact ih hlines _ (idle_takeLine htake)

example : prompts [.typed "1 2", .typed ". bye", .typed "3"] (.fresh 64) .endless = [⟨0⟩, ⟨2⟩] := by
  decide +kernel

end Session

namespace Program

/-- With a terminal the program shows what it shows for the same lines as input without echo. Only
the history may be complained about in addition. -/
theorem serve_typed {t : Terminal} {lines : List String} {stop : Signal} {behind : List Signal}
    (ht : t.signals = lines.map .typed ++ stop :: behind)
    (hlines : ∀ line ∈ lines, '\n' ∉ line.toList) (hstop : stop = .ctrlC ∨ stop = .ctrlD)
    (maxDepth historySize : Nat) {s : Surroundings} (ho : s.outlet.Idle) :
    let typed := serve t ⟨maxDepth, some (.interactive historySize)⟩ s
    let read := serve t ⟨maxDepth, some (.batch false)⟩
      { s with input := ⟨Session.typedBytes lines, .endOfInput⟩ }
    typed.status = read.status ∧ typed.written = read.written ∧
      typed.notices =
        (if (s.history.opened? historySize).isSome then [] else [historyNotice]) ++
          read.notices := by
  have hsession := Session.interact_typed t.failure hlines hstop behind (.fresh maxDepth) ho
  rw [← ht] at hsession
  simp only [serve, modeOf, Option.getD_some, hsession]
  cases s.history.opened? historySize <;> simp

end Program

end ColonForth
