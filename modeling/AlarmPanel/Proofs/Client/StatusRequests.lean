import AlarmPanel.Proofs.Client.Correlation
import AlarmPanel.Proofs.Client.Transmission

/-!
# Which status requests are made

The first step of a call for a status either makes the request or refuses it, and the text of the command alone
decides: a request is made for the letter S and two hexadecimal digits, and also for the letter S, a plus sign and one
digit (`Client.status_requested_iff`). Then the call has a slot under the code that the digits spell, and goes on to
send its line. Any other text is refused, and neither the link nor the table of open requests sees anything of it.
-/

namespace AlarmPanel

namespace Client

variable {c d : Client} {strand : Strand} {task slot : Nat} {turn : Turn} {command : String} {patience : Duration}
  {code : UInt8}

/-! ## The table under a code -/

/-- A slot that is shared under a code is open under this code, and under no other. -/
theorem TableSound.openSlot?_shareSlot_iff (hsound : c.TableSound) (code key : UInt8) :
    (c.shareSlot code).1.openSlot? key = some (c.shareSlot code).2 ↔ key = code := by
  have hshared := hsound.shareSlot code
  rw [hshared.openSlot?_eq_some_iff]
  constructor
  · intro hkey
    exact hshared.one_code hkey (hsound.mem_shareSlot code)
  · rintro rfl
    exact hsound.mem_shareSlot key

/-- Under the other codes the table leads where it led. -/
theorem TableSound.openSlot?_shareSlot_of_ne (hsound : c.TableSound) {other : UInt8} (hother : other ≠ code) :
    (c.shareSlot code).1.openSlot? other = c.openSlot? other := by
  refine Option.ext fun slot => ?_
  rw [(hsound.shareSlot code).openSlot?_eq_some_iff, hsound.openSlot?_eq_some_iff]
  rcases hsound.shareSlot_cases code with ⟨_, -, heq⟩ | ⟨-, heq⟩
  · rw [heq]
  · -- The new entry is for another code.
    rw [heq, List.mem_cons, mem_filter_code]
    constructor
    · rintro (hnew | ⟨hold, -⟩)
      · exact absurd (congrArg Prod.fst hnew) hother
      · exact hold
    · intro hold
      exact .inr ⟨hold, hother⟩

/-! ## The first step -/

/-- Nothing has been done to the outside, and the link is as it was. -/
structure Quiet (c d : Client) : Prop where
  log : d.log = c.log
  link : d.link = c.link

/-- In a step from `c` to `d` the call has made its request: it has an empty slot, to which the table leads from the
code and from no other, and is about to send its line. -/
structure Requests (task : Nat) (command : String) (patience : Duration) (code : UInt8) (slot : Nat) (c d : Client) :
    Prop extends Quiet c d where
  place : d.tasks[task]? =
    some (.call (.ask command patience) (.requesting slot command patience (requestLine command) (.connecting .asking)))
  keyed : ∀ key, d.openSlot? key = some slot ↔ key = code
  empty : d.slots[slot]? = some none
  others : ∀ other, other ≠ code → d.openSlot? other = c.openSlot? other

/-- In a step from `c` to `d` the call has been refused by its text: the slots and the table are as they were. -/
structure TurnsDown (task : Nat) (command : String) (patience : Duration) (c d : Client) : Prop extends Quiet c d where
  answered : d.tasks[task]? =
    some (.over (.call (.ask command patience)) (.answered (.failed (.invalidArgument (.noStatusRequest command)))))
  slots : d.slots = c.slots
  openSlots : d.openSlots = c.openSlots

theorem quiet_shareSlot (code : UInt8) (c : Client) : Quiet c (c.shareSlot code).1 := by
  unfold shareSlot
  dsimp only
  split
  next => split <;> exact ⟨rfl, rfl⟩
  next => exact ⟨rfl, rfl⟩

/-- A command with a code makes the request. -/
theorem requests_beginAsk (hsound : c.TableSound) (hwas : c.tasks[task]? = some (.call (.ask command patience) .fresh))
    (hcode : statusCode command = .ok code) :
    c.Requests task command patience code (c.shareSlot code).2
      (c.beginAsk task (.ask command patience) command patience) := by
  have hquiet := quiet_shareSlot code c
  have hkeyed := hsound.openSlot?_shareSlot_iff code
  have hreaches := reaches_setTask (adds_shareSlot code c) (tasks_shareSlot code c) hwas (.call (.ask command patience)
    (.requesting (c.shareSlot code).2 command patience (requestLine command) (.connecting .asking)))
  rw [beginAsk_of_statusCode task patience c hcode]
  exact
    { log := hquiet.log
      link := hquiet.link
      place := hreaches.now_eq
      keyed := hkeyed
      empty := (hsound.shareSlot code).empty _ (mem_of_openSlot? ((hkeyed code).mpr rfl))
      others := fun _ hother => hsound.openSlot?_shareSlot_of_ne hother }

/-- A command without a code is refused. -/
theorem turnsDown_beginAsk (hwas : c.tasks[task]? = some (.call (.ask command patience) .fresh))
    (hcode : ∀ code, statusCode command ≠ .ok code) :
    c.TurnsDown task command patience (c.beginAsk task (.ask command patience) command patience) := by
  simp only [beginAsk, statusCode_eq_error hcode]
  exact ⟨⟨rfl, rfl⟩, (reaches_finish (.refl c) rfl hwas _ _).now_eq, rfl, rfl⟩

/-- The first step makes the request under a code just when the text has this code. -/
theorem requests_beginAsk_iff (hsound : c.TableSound)
    (hwas : c.tasks[task]? = some (.call (.ask command patience) .fresh)) (code : UInt8) :
    (∃ slot, c.Requests task command patience code slot
      (c.beginAsk task (.ask command patience) command patience)) ↔ statusCode command = .ok code := by
  constructor
  · rintro ⟨slot, hrequests⟩
    cases hread : statusCode command with
    | ok found =>
      have hfound := requests_beginAsk hsound hwas hread
      -- The call has one slot, so both codes lead to it.
      have hslot : slot = (c.shareSlot found).2 := by
        cases Option.some.inj (hrequests.place.symm.trans hfound.place)
        rfl
      have hkey := (hrequests.keyed found).mp (hslot ▸ (hfound.keyed found).mpr rfl)
      rw [hkey]
    | error e =>
      have hturns := turnsDown_beginAsk hwas fun code hcode => by cases hread.symm.trans hcode
      cases Option.some.inj (hrequests.place.symm.trans hturns.answered)
  · intro hcode
    exact ⟨_, requests_beginAsk hsound hwas hcode⟩

/-! ## Histories -/

theorem answeredAtOnce_of_statusCode (hcode : ∀ code, statusCode command ≠ .ok code) (patience : Duration) :
    AnsweredAtOnce (.ask command patience) (.failed (.invalidArgument (.noStatusRequest command))) :=
  fun _ _ hwas => (turnsDown_beginAsk hwas hcode).answered

/-- A call that waits for its answer has sent its line, once. -/
theorem writesBy_of_awaiting {settings : ClientSettings} {handlers : Handlers} {link : Link}
    {history : List ClientAction} {asked : String} {deadline : Nat}
    (h : (new settings handlers link).performAll? history = some c)
    (hwaits : c.tasks[task]? = some (.call (.ask command patience) (.awaiting slot asked deadline)))
    (hcode : statusCode command = .ok code) : c.writesBy task = [requestLine command] := by
  have hlines := (accounts_of_call h hwaits rfl).exact trivial
  have hcommands : (Call.ask command patience).commands = [command] := by
    rw [Call.commands, hcode]
    rfl
  rw [hcommands] at hlines
  exact List.perm_singleton.mp ((List.append_nil (c.writesBy task)).symm ▸ hlines)

/-- Whatever has happened before: the first step of a call for a status makes the request under a code just when its
text is the letter S and two hexadecimal digits that spell the code, or the letter S, a plus sign and one digit that
does. A call that has made its request and waits for the answer has sent its line, once. And if the text spells no
code, the call has been refused or can be at any time; whatever step it makes refuses it, and does nothing else. -/
theorem status_requested_iff {settings : ClientSettings} {handlers : Handlers} {link : Link}
    {history : List ClientAction} (h : (new settings handlers link).performAll? history = some c)
    (hrole : c.roleAt task = some (.call (.ask command patience))) :
    (c.tasks[task]? = some (.call (.ask command patience) .fresh) →
      ∃ d, c.perform? (.go ⟨task, 0⟩ .own) = some d ∧
        ∀ code, (∃ slot, c.Requests task command patience code slot d) ↔
          SpellsStatus command code ∨ SpellsSignedStatus command code) ∧
    (∀ slot asked deadline, c.tasks[task]? = some (.call (.ask command patience) (.awaiting slot asked deadline)) →
      c.writesBy task = [requestLine command]) ∧
    ((∀ code, ¬(SpellsStatus command code ∨ SpellsSignedStatus command code)) →
      c.Answers task (.ask command patience) (.failed (.invalidArgument (.noStatusRequest command))) ∧
      ∀ strand turn d, strand.task = task → c.perform? (.go strand turn) = some d →
        c.TurnsDown task command patience d) := by
  have hsound : c.TableSound := ((sound_new settings handlers link).performAll? h).table
  refine ⟨fun hwas => ?_, fun slot asked deadline hwaits => ?_, fun hnone => ?_⟩
  · refine ⟨_, go?_of_callStep? hwas rfl, fun code => ?_⟩
    rw [← statusCode_eq_ok_iff]
    exact requests_beginAsk_iff hsound hwas code
  · cases hread : statusCode command with
    | ok code => exact writesBy_of_awaiting h hwaits hread
    | error e =>
      -- Without a code the call never comes to wait.
      have honce := answeredAtOnce_of_statusCode (fun code hcode => by cases hread.symm.trans hcode) patience
      rcases beforeOrAfter_of_answeredAtOnce h honce task _ hwaits rfl with hnot | hnot
      · cases hnot
      · cases hnot
  · have hcode : ∀ code, statusCode command ≠ .ok code := fun code hcode =>
      hnone code (statusCode_eq_ok_iff.mp hcode)
    have honce := answeredAtOnce_of_statusCode hcode patience
    refine ⟨answers_of_answeredAtOnce h honce hrole, ?_⟩
    rintro strand turn d rfl hstep
    obtain ⟨was, more, now, hwas, hmove, hreaches⟩ := move_of_go? hstep
    have hcall : was.role = .call (.ask command patience) := by
      rw [roleAt, hwas] at hrole
      exact Option.some.inj hrole
    rcases beforeOrAfter_of_answeredAtOnce h honce strand.task was hwas hcall with rfl | rfl
    · rw [eq_beginCall_of_go? hstep hwas]
      exact turnsDown_beginAsk hwas hcode
    · -- A call that is over makes no step.
      cases hmove

/-- Two calls at once: the one with a code is about to make its request, and the command to arm is refused. -/
theorem status_requested_iff_both :
    let history : List ClientAction := [.call (.ask "S1a" (.ofMillis 5000)), .call (.ask "A1234E" (.ofMillis 5000))]
    ∃ c, (new .default .none (.new false false false)).performAll? history = some c ∧
      (∃ d, c.perform? (.go ⟨0, 0⟩ .own) = some d ∧ ∃ slot, c.Requests 0 "S1a" (.ofMillis 5000) 0x1a slot d) ∧
      c.Answers 1 (.ask "A1234E" (.ofMillis 5000)) (.failed (.invalidArgument (.noStatusRequest "A1234E"))) := by
  intro history
  obtain ⟨c, hc, htasks⟩ : ∃ c, (new .default .none (.new false false false)).performAll? history = some c ∧
      c.tasks = [.call (.ask "S1a" (.ofMillis 5000)) .fresh, .call (.ask "A1234E" (.ofMillis 5000)) .fresh] :=
    ⟨_, rfl, rfl⟩
  have hrole (task : Nat) : c.roleAt task = (c.tasks.map Task.role)[task]? := List.getElem?_map.symm
  have hspelled : statusCode "S1a" = .ok 0x1a := by decide +kernel
  have harm : statusCode "A1234E" = .error (.invalidArgument (.noStatusRequest "A1234E")) := by decide +kernel
  have hask : c.roleAt 0 = some (.call (.ask "S1a" (.ofMillis 5000))) := by rw [hrole, htasks]; rfl
  have hother : c.roleAt 1 = some (.call (.ask "A1234E" (.ofMillis 5000))) := by rw [hrole, htasks]; rfl
  obtain ⟨d, hd, hiff⟩ := (status_requested_iff hc hask).1 (by rw [htasks]; rfl)
  have hrefused := (status_requested_iff hc hother).2.2 fun code hcode => by
    cases harm.symm.trans (statusCode_eq_ok_iff.mpr hcode)
  exact ⟨c, hc, ⟨d, hd, (hiff 0x1a).mpr (statusCode_eq_ok_iff.mp hspelled)⟩, hrefused.1⟩

/-- The text S+1 is not the letter S and two hexadecimal digits. But a call with it makes its request, under the code
one, and sends its line. -/
theorem plus_sign_requested :
    (∀ code, ¬SpellsStatus "S+1" code) ∧
      ∃ c d e slot, (new .default .none (.new false false false)).performAll?
          [.call (.ask "S+1" (.ofMillis 5000))] = some c ∧
        c.perform? (.go ⟨0, 0⟩ .own) = some d ∧ c.Requests 0 "S+1" (.ofMillis 5000) 1 slot d ∧
        d.performAll? (List.replicate 6 (.go ⟨0, 0⟩ .own)) = some e ∧ e.writesBy 0 = [requestLine "S+1"] := by
  constructor
  · rintro code ⟨high, low, hcommand, hspells⟩
    -- A plus sign is no digit.
    have hchars : ['S', '+', '1'] = ['S', high, low] := hcommand
    cases hchars
    cases Text.readHex?_eq_some_iff.mpr ⟨List.cons_ne_nil _ _, hspells⟩
  · have hcode : statusCode "S+1" = .ok 1 := by decide +kernel
    have hsound := (sound_new .default .none (.new false false false)).table
    have hsends : ((((new .default .none (.new false false false)).addTask
        (.call (.ask "S+1" (.ofMillis 5000)) .fresh)).beginAsk 0 (.ask "S+1" (.ofMillis 5000)) "S+1"
          (.ofMillis 5000)).performAll? (List.replicate 6 (.go ⟨0, 0⟩ .own))).any fun e =>
      e.writesBy 0 = [requestLine "S+1"] := by decide +kernel
    obtain ⟨e, he, hlines⟩ := (Option.any_eq_true _ _).mp hsends
    exact ⟨_, _, e, _, rfl, rfl, requests_beginAsk (hsound.of_eq rfl rfl) rfl hcode, he, of_decide_eq_true hlines⟩

end Client

end AlarmPanel
