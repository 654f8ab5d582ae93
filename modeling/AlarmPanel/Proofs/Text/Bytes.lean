import AlarmPanel.Text.Bytes

/-!
# Cuts of a text

A cut measured in bytes succeeds exactly if it falls between two characters (`splitBytes?_eq_some_iff`),
so a range of bytes is there exactly if the text splits into three parts of the right sizes
(`byteRange?_eq_some_iff`).
-/

namespace AlarmPanel.Text

theorem splitBytes?_eq_some_iff {n : Nat} {cs taken rest : List Char} :
    splitBytes? n cs = some (taken, rest) ↔ cs = taken ++ rest ∧ byteLength taken = n := by
  induction cs generalizing n taken with
  | nil =>
    cases n with
    | zero =>
      rw [splitBytes?, Option.some.injEq, Prod.mk.injEq]
      constructor
      · rintro ⟨rfl, rfl⟩
        exact ⟨rfl, rfl⟩
      · rintro ⟨h, -⟩
        obtain ⟨rfl, rfl⟩ := List.append_eq_nil_iff.mp h.symm
        exact ⟨rfl, rfl⟩
    | succ n =>
      rw [splitBytes?]
      constructor
      · intro h
        cases h
      · rintro ⟨h, hlen⟩
        obtain ⟨rfl, -⟩ := List.append_eq_nil_iff.mp h.symm
        cases hlen
  | cons c cs ih =>
    have hpos : 0 < c.utf8Size := Char.utf8Size_pos c
    cases n with
    | zero =>
      rw [splitBytes?, Option.some.injEq, Prod.mk.injEq]
      constructor
      · rintro ⟨rfl, rfl⟩
        exact ⟨rfl, rfl⟩
      · rintro ⟨h, hlen⟩
        cases taken with
        | nil => exact ⟨rfl, h⟩
        | cons d taken =>
          obtain ⟨rfl, -⟩ := List.cons.inj h
          rw [byteLength_cons] at hlen
          omega
    | succ n =>
      rw [splitBytes?]
      constructor
      · intro h
        split at h
        · next hle =>
          obtain ⟨⟨taken', rest'⟩, hsplit, heq⟩ := Option.map_eq_some_iff.mp h
          obtain ⟨rfl, rfl⟩ := Prod.mk.inj heq
          obtain ⟨rfl, hlen⟩ := ih.mp hsplit
          refine ⟨rfl, ?_⟩
          rw [byteLength_cons, hlen]
          omega
        · cases h
      · rintro ⟨h, hlen⟩
        cases taken with
        | nil => cases hlen
        | cons d taken =>
          obtain ⟨rfl, rfl⟩ := List.cons.inj h
          rw [byteLength_cons] at hlen
          rw [if_pos (by omega), Option.map_eq_some_iff]
          exact ⟨(taken, rest), ih.mpr ⟨rfl, by omega⟩, rfl⟩

/-- A range of bytes is a part of the text that has as many bytes before it as it starts at. -/
theorem byteRange?_eq_some_iff {start stop : Nat} {cs field : List Char} :
    byteRange? start stop cs = some field ↔
      ∃ before after, cs = before ++ field ++ after ∧ byteLength before = start ∧
        byteLength field = stop - start := by
  simp only [byteRange?, Option.bind_eq_bind, Option.bind_eq_some_iff, Prod.exists,
    splitBytes?_eq_some_iff, Option.pure_def, Option.some.injEq]
  constructor
  · rintro ⟨before, rest, ⟨rfl, hbefore⟩, taken, after, ⟨rfl, htaken⟩, rfl⟩
    exact ⟨before, after, (List.append_assoc ..).symm, hbefore, htaken⟩
  · rintro ⟨before, after, rfl, hbefore, hfield⟩
    exact ⟨before, field ++ after, ⟨List.append_assoc .., hbefore⟩, field, after, ⟨rfl, hfield⟩, rfl⟩

/-- A text is cut at a number of bytes in only one way. -/
theorem append_inj_of_byteLength {as bs cs ds : List Char} (h : as ++ cs = bs ++ ds)
    (hlen : byteLength as = byteLength bs) : as = bs ∧ cs = ds := by
  have has : splitBytes? (byteLength bs) (as ++ cs) = some (as, cs) :=
    splitBytes?_eq_some_iff.mpr ⟨rfl, hlen⟩
  have hbs : splitBytes? (byteLength bs) (as ++ cs) = some (bs, ds) :=
    splitBytes?_eq_some_iff.mpr ⟨h, rfl⟩
  exact Prod.mk.inj (Option.some.inj (has.symm.trans hbs))

/-- A range of bytes that starts at the end of a part of the text is what comes next in it. -/
theorem byteRange?_append_eq_some_iff {start stop : Nat} {before rest field : List Char}
    (hbefore : byteLength before = start) :
    byteRange? start stop (before ++ rest) = some field ↔
      ∃ after, rest = field ++ after ∧ byteLength field = stop - start := by
  rw [byteRange?_eq_some_iff]
  constructor
  · rintro ⟨before', after, heq, hbefore', hfield⟩
    rw [List.append_assoc] at heq
    exact ⟨after, (append_inj_of_byteLength heq (hbefore.trans hbefore'.symm)).2, hfield⟩
  · rintro ⟨after, rfl, hfield⟩
    exact ⟨before, after, (List.append_assoc ..).symm, hbefore, hfield⟩

theorem length_le_byteLength (cs : List Char) : cs.length ≤ byteLength cs := by
  induction cs with
  | nil => exact Nat.le_refl _
  | cons c cs ih =>
    have hpos : 0 < c.utf8Size := Char.utf8Size_pos c
    rw [List.length_cons, byteLength_cons]
    omega

end AlarmPanel.Text
