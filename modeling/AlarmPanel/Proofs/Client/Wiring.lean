import AlarmPanel.Client.Run

/-!
# What connecting and sending leave alone

Connecting, sending and updating change the link and the locks, and what hangs on them: the backoff, and
when the panel was last heard of. What they do to the outside is noted, and it reports nothing. All else is
as it was (`Client.Wired`), so whatever part of a client is looked at, they are one case.
-/

namespace AlarmPanel

/-- Whether an effect reports an event or a change, to a handler or by broadcast. -/
def Effect.reports : Effect → Bool
  | .called _ _ | .notified (.report _) => true
  | _ => false

namespace Client

/-- The client `d` is like `c` but for the link, the locks and what hangs on them. -/
def Wired (c d : Client) : Prop :=
  ∃ link connectLock backoff writeLock lastHeard entries,
    d = { c with link, connectLock, backoff, writeLock, lastHeard, log := entries ++ c.log } ∧
      ∀ entry ∈ entries, entry.effect.reports = false

variable {c d e : Client}

namespace Wired

theorem refl (c : Client) : c.Wired c :=
  ⟨_, _, _, _, _, [], rfl, fun _ h => absurd h List.not_mem_nil⟩

theorem trans (hcd : c.Wired d) (hde : d.Wired e) : c.Wired e := by
  obtain ⟨_, _, _, _, _, first, rfl, hfirst⟩ := hcd
  obtain ⟨_, _, _, _, _, second, rfl, hsecond⟩ := hde
  refine ⟨_, _, _, _, _, second ++ first, by rw [List.append_assoc], fun entry h => ?_⟩
  exact (List.mem_append.mp h).elim (hsecond entry) (hfirst entry)

theorem note {effect : Effect} (h : effect.reports = false) (c : Client) : c.Wired (c.note effect) := by
  refine ⟨_, _, _, _, _, [⟨c.now, effect⟩], rfl, fun entry hentry => ?_⟩
  rw [List.mem_singleton.mp hentry]
  exact h

/-- Nothing is noted. -/
theorem quiet {link : Link} {connectLock writeLock : Lock} {backoff : Backoff} {lastHeard : Option Nat}
    (c : Client) : c.Wired { c with link, connectLock, backoff, writeLock, lastHeard } :=
  ⟨_, _, _, _, _, [], rfl, fun _ h => absurd h List.not_mem_nil⟩

end Wired

theorem wired_closeLink (c : Client) : c.Wired c.closeLink :=
  (Wired.quiet c).trans (.note rfl _)

theorem wired_endDial (c : Client) : c.Wired c.endDial.1 := by
  unfold endDial
  rcases c.link.dial with ⟨link, outcome⟩
  have hdialed : c.Wired ({ c with link }.note (.dialed outcome)) := (Wired.quiet c).trans (.note rfl _)
  cases outcome with
  | connected | refused | unanswered => exact hdialed.trans (.quiet _)

theorem wired_announceLink (c : Client) : c.Wired c.announceLink :=
  (Wired.quiet c).trans ((Wired.note rfl _).trans (.quiet _))

theorem wired_connectStep? {strand : Strand} {turn : Turn} {place : ConnectPlace}
    {next : Client × Next ConnectPlace (Except Error Unit)}
    (h : c.connectStep? strand turn place = some next) : c.Wired next.1 := by
  unfold connectStep? at h
  split at h
  next => cases h; exact .quiet c
  next =>
    split at h
    next =>
      split at h
      next => cases h; exact wired_closeLink c
      next => cases h; exact .refl c
      next => cases h; exact .quiet c
    next => cases h
  next =>
    have hdialing : c.Wired (c.note (.dialing strand)) := .note rfl c
    split at h
    next => cases h; exact .quiet c
    next =>
      split at h
      next => cases h; exact .quiet c
      next =>
        split at h
        next => cases h; exact hdialing
        next => cases h; exact hdialing.trans (wired_endDial _)
  next => cases h; exact wired_endDial c
  next => cases h; exact wired_announceLink c
  next =>
    split at h
    next => cases h; exact .refl c
    next => cases h
  next =>
    split at h
    next => cases h; exact .quiet c
    next => cases h
  next => cases h

theorem wired_endWrite (strand : Strand) (line : String) (c : Client) :
    c.Wired (c.endWrite strand line).1 := by
  unfold endWrite
  rcases c.link.write with ⟨link, written⟩
  cases written with
  | true => exact (Wired.quiet c).trans (.note rfl _)
  | false => exact .quiet c

theorem wired_sendStep? {strand : Strand} {turn : Turn} {line : String} {place : SendPlace}
    {next : Client × Next SendPlace (Except Error Unit)}
    (h : c.sendStep? strand turn line place = some next) : c.Wired next.1 := by
  unfold sendStep? at h
  split at h
  next place =>
    obtain ⟨⟨d, after⟩, hstep, rfl⟩ := Option.map_eq_some_iff.mp h
    have hd : c.Wired d := wired_connectStep? hstep
    rcases after with place | (_ | _) | _ <;> exact hd
  next => cases h; exact .quiet c
  next =>
    split at h
    next =>
      split at h
      next => cases h; exact .refl c
      next => cases h; exact wired_endWrite strand line c
    next => cases h
  next => cases h; exact wired_endWrite strand line c
  next => cases h

theorem wired_updateStep? {strand : Strand} {turn : Turn} {branches : Branches}
    {next : Client × Next Branches (Except Error Unit)}
    (h : c.updateStep? strand turn branches = some next) : c.Wired next.1 := by
  unfold updateStep? at h
  split at h
  next place =>
    obtain ⟨⟨d, after⟩, hstep, rfl⟩ := Option.map_eq_some_iff.mp h
    have hd : c.Wired d := wired_sendStep? hstep
    rcases after with place | (_ | _) | _ <;> exact hd
  next => cases h

end Client

end AlarmPanel
