import StreamTap.Proofs.Json.Grammar
import StreamTap.Settings.Environment

/-!
# Settings that the environment overrides

A variable asks for a value of its setting or for nothing.  A number is asked for by a numeral
of it (`IsNumeral`), and only if it is below the limit of its setting.  The loop over the
digits finds that out without ever holding a number that is too great: a number only grows by
further digits, so a numeral that reaches the limit on its way is one of no number below it
(`foldlM_appendDigit?_eq_some_iff`).

`Overridden` says of settings before and after that each setting is what is asked for, or is
what it was if nothing is asked for, and that the capacities, for which there are no variables,
stay.  This is what becomes of all settings in all environments.  It leaves nothing open, so the
same environment has nothing left to do the second time (`override_settles`).
-/

namespace StreamTap

namespace Environment

/-! ## Numbers -/

/-- A text in which a number is written: at most a plus sign, and one or more digits, of which
the first may be zeros. -/
def IsNumeral (n : Nat) (text : String) : Prop :=
  ∃ ds, (text.toList = ds ∨ text.toList = '+' :: ds) ∧ Json.Digits ds ∧
    Nat.ofDigitChars 10 ds 0 = n

theorem appendDigit?_eq_some_iff {limit n m : Nat} {c : Char} :
    appendDigit? limit n c = some m ↔
      c.isDigit = true ∧ 10 * n + (c.toNat - '0'.toNat) = m ∧ m < limit := by
  simp only [appendDigit?, Option.ite_none_right_eq_some, Option.some.injEq]
  constructor
  · rintro ⟨⟨hdigit, hlt⟩, rfl⟩
    exact ⟨hdigit, rfl, hlt⟩
  · rintro ⟨hdigit, rfl, hlt⟩
    exact ⟨⟨hdigit, hlt⟩, rfl⟩

theorem le_ofDigitChars (ds : List Char) (n : Nat) : n ≤ Nat.ofDigitChars 10 ds n := by
  induction ds generalizing n with
  | nil => exact Nat.le_of_eq Nat.ofDigitChars_nil.symm
  | cons c cs ih =>
    rw [Nat.ofDigitChars_cons]
    have hrest := ih (10 * n + (c.toNat - '0'.toNat))
    omega

/-- The loop comes to an end exactly if there are only digits and the number they append up to
is below the limit. -/
theorem foldlM_appendDigit?_eq_some_iff {limit m n : Nat} {ds : List Char} (hm : m < limit) :
    ds.foldlM (appendDigit? limit) m = some n ↔
      ds.all Char.isDigit = true ∧ Nat.ofDigitChars 10 ds m = n ∧ n < limit := by
  induction ds generalizing m with
  | nil =>
    simp only [List.foldlM_nil, Option.pure_def, Option.some.injEq, List.all_nil, true_and,
      Nat.ofDigitChars_nil]
    constructor
    · rintro rfl
      exact ⟨rfl, hm⟩
    · exact And.left
  | cons c cs ih =>
    simp only [List.foldlM_cons, Option.bind_eq_bind, Option.bind_eq_some_iff,
      appendDigit?_eq_some_iff, List.all_cons, Bool.and_eq_true, Nat.ofDigitChars_cons]
    constructor
    · rintro ⟨_, ⟨hdigit, rfl, hlt⟩, hloop⟩
      obtain ⟨hall, hvalue, hbelow⟩ := (ih hlt).1 hloop
      exact ⟨⟨hdigit, hall⟩, hvalue, hbelow⟩
    · rintro ⟨⟨hdigit, hall⟩, hvalue, hbelow⟩
      have hgrows := le_ofDigitChars cs (10 * m + (c.toNat - '0'.toNat))
      have hlt : 10 * m + (c.toNat - '0'.toNat) < limit := by omega
      exact ⟨_, ⟨hdigit, rfl, hlt⟩, (ih hlt).2 ⟨hall, hvalue, hbelow⟩⟩

theorem unsigned_plus (ds : List Char) : unsigned ('+' :: ds) = ds := rfl

theorem unsigned_digits {ds : List Char} (h : Json.Digits ds) : unsigned ds = ds := by
  obtain ⟨hne, hall⟩ := h
  unfold unsigned
  split
  · simp at hall
  · rfl

theorem unsigned_cases (cs : List Char) : cs = unsigned cs ∨ cs = '+' :: unsigned cs := by
  unfold unsigned
  split
  · exact .inr rfl
  · exact .inl rfl

theorem isNumeral_iff {n : Nat} {text : String} : IsNumeral n text ↔
    Json.Digits (unsigned text.toList) ∧ Nat.ofDigitChars 10 (unsigned text.toList) 0 = n := by
  constructor
  · rintro ⟨ds, htext | htext, hdigits, hvalue⟩
    · rw [htext, unsigned_digits hdigits]
      exact ⟨hdigits, hvalue⟩
    · rw [htext, unsigned_plus]
      exact ⟨hdigits, hvalue⟩
  · rintro ⟨hdigits, hvalue⟩
    exact ⟨_, unsigned_cases _, hdigits, hvalue⟩

theorem natural?_eq_some_iff {limit n : Nat} {text : String} (hlimit : 0 < limit) :
    natural? limit text = some n ↔ IsNumeral n text ∧ n < limit := by
  rw [isNumeral_iff, natural?, Json.Digits]
  simp only [List.isEmpty_iff]
  split
  · next hempty => simp [hempty]
  · next hne =>
    rw [foldlM_appendDigit?_eq_some_iff hlimit]
    simp [hne, and_assoc]

/-! ## Booleans -/

def boolText : Bool → String
  | true => "true"
  | false => "false"

theorem bool?_eq_some_iff {b : Bool} {text : String} : bool? text = some b ↔ text = boolText b := by
  cases b <;> grind [bool?, boolText]

end Environment

/-! ## One setting -/

section Replaced

variable {α : Type} {asked : α → Prop} {a b c : α}

/-- What has become of a value where another may be asked for: the other one if there is one,
and else the value it was. -/
structure Replaced (asked : α → Prop) (before after : α) : Prop where
  taken : ∀ a, asked a → after = a
  kept : (∀ a, ¬asked a) → after = before

theorem Replaced.again (h : Replaced asked a b) (h' : Replaced asked b c) : c = b := by
  by_cases hasked : ∃ x, asked x
  · obtain ⟨x, hx⟩ := hasked
    exact (h'.taken x hx).trans (h.taken x hx).symm
  · exact h'.kept fun x hx => hasked ⟨x, hx⟩

/-- A variable replaces its setting if its value is read just when it asks for what is read. -/
theorem replaced_getD {value : Option α} (h : ∀ a, value = some a ↔ asked a) (before : α) :
    Replaced asked before (value.getD before) where
  taken a ha := by rw [(h a).2 ha, Option.getD_some]
  kept hnone := by
    have hvalue : value = none :=
      Option.eq_none_iff_forall_ne_some.2 fun a ha => hnone a ((h a).1 ha)
    rw [hvalue, Option.getD_none]

theorem replaced_word {γ : Type} {asked : Nat → Prop} {ofNat : Nat → γ} {toNat : γ → Nat}
    {value : Option Nat} (h : ∀ n, value = some n ↔ asked n)
    (hword : ∀ n, asked n → toNat (ofNat n) = n) (before : γ) :
    Replaced asked (toNat before) (toNat ((value.map ofNat).getD before)) := by
  have hgetD : toNat ((value.map ofNat).getD before) = value.getD (toNat before) := by
    cases value with
    | none => rfl
    | some n => exact hword n ((h n).1 rfl)
  rw [hgetD]
  exact replaced_getD h (toNat before)

end Replaced

namespace Settings

/-! ## All settings -/

/-- The numbers below `limit` that a variable asks for. -/
def AsksNumber (env : Environment) (name : String) (limit n : Nat) : Prop :=
  n < limit ∧ ∃ text, env name = some text ∧ Environment.IsNumeral n text

/-- What becomes of settings in an environment. -/
structure Overridden (env : Environment) (before after : Settings) : Prop where
  window : Replaced (AsksNumber env "REPLAY_CORE_WINDOW" UInt32.size)
    before.stream.window.toNat after.stream.window.toNat
  servicePort : Replaced (AsksNumber env "REPLAY_CORE_SERVICE_PORT" UInt16.size)
    before.tracker.servicePort.toNat after.tracker.servicePort.toNat
  captureResponse :
    Replaced (fun b => env "REPLAY_CORE_CAPTURE_RESPONSE" = some (Environment.boolText b))
      before.tracker.captureResponse after.tracker.captureResponse
  level : Replaced (fun level => env "REPLAY_CORE_LOG_LEVEL" = some level)
    before.log.level after.log.level
  handoffCapacity : after.stream.handoffCapacity = before.stream.handoffCapacity
  queueCapacity : after.tracker.queueCapacity = before.tracker.queueCapacity
  announceCapacity : after.tracker.announceCapacity = before.tracker.announceCapacity

variable {env : Environment} {s t u : Settings}

theorem Overridden.again (h : Overridden env s t) (h' : Overridden env t u) : u = t := by
  have hwindow : u.stream.window = t.stream.window :=
    UInt32.toNat_inj.1 (h.window.again h'.window)
  have hport : u.tracker.servicePort = t.tracker.servicePort :=
    UInt16.toNat_inj.1 (h.servicePort.again h'.servicePort)
  have hcapture := h.captureResponse.again h'.captureResponse
  have hlevel := h.level.again h'.level
  have hhandoff := h'.handoffCapacity
  have hqueue := h'.queueCapacity
  have hannounce := h'.announceCapacity
  obtain ⟨⟨_, _⟩, ⟨_, _, _, _⟩, ⟨_⟩⟩ := t
  obtain ⟨⟨_, _⟩, ⟨_, _, _, _⟩, ⟨_⟩⟩ := u
  cases hwindow; cases hport; cases hcapture; cases hlevel
  cases hhandoff; cases hqueue; cases hannounce
  rfl

theorem read_eq_some_iff {name : String} {limit n : Nat} (hlimit : 0 < limit) :
    (env name).bind (Environment.natural? limit) = some n ↔ AsksNumber env name limit n := by
  simp only [Option.bind_eq_some_iff, Environment.natural?_eq_some_iff hlimit, AsksNumber]
  constructor
  · rintro ⟨text, htext, hnumeral, hlt⟩
    exact ⟨hlt, text, htext, hnumeral⟩
  · rintro ⟨hlt, text, htext, hnumeral⟩
    exact ⟨text, htext, hnumeral, hlt⟩

theorem overridden_override (env : Environment) (s : Settings) :
    Overridden env s (s.override env) where
  window := replaced_word (fun _ => read_eq_some_iff (by decide))
    (fun _ hasked => UInt32.toNat_ofNat_of_lt hasked.1) _
  servicePort := replaced_word (fun _ => read_eq_some_iff (by decide))
    (fun _ hasked => UInt16.toNat_ofNat_of_lt hasked.1) _
  captureResponse := by
    refine replaced_getD (fun b => ?_) _
    simp only [Option.bind_eq_some_iff, Environment.bool?_eq_some_iff, exists_eq_right]
  level := replaced_getD (fun _ => Iff.rfl) _
  handoffCapacity := rfl
  queueCapacity := rfl
  announceCapacity := rfl

/-- Each setting is what its variable asks for, and what it was if nothing is asked for, and
this is so at once: the same environment changes nothing the second time. -/
theorem override_settles (env : Environment) (s : Settings) :
    Overridden env s (s.override env) ∧ (s.override env).override env = s.override env :=
  ⟨overridden_override env s,
    (overridden_override env s).again (overridden_override env (s.override env))⟩

/-- The greatest window, behind a plus sign and zeros, a port that is too great by one, a
boolean with a capital letter, and a level without letters. -/
theorem override_settles_atLimits :
    let env : Environment := fun name =>
      [("REPLAY_CORE_WINDOW", "+0004294967295"), ("REPLAY_CORE_SERVICE_PORT", "65536"),
        ("REPLAY_CORE_CAPTURE_RESPONSE", "False"), ("REPLAY_CORE_LOG_LEVEL", "")].lookup name
    let t := Settings.override env { tracker := { servicePort := 80, announceCapacity := 1 } }
    t.stream.window.toNat = 4294967295 ∧ t.tracker.servicePort.toNat = 80 ∧
      t.tracker.captureResponse = true ∧ t.log.level = "" ∧ t.tracker.announceCapacity = 1 ∧
      t.override env = t := by
  intro env t
  obtain ⟨hsettings, hagain⟩ :=
    override_settles env { tracker := { servicePort := 80, announceCapacity := 1 } }
  refine ⟨?window, ?port, ?capture, hsettings.level.taken "" rfl, hsettings.announceCapacity,
    hagain⟩
  case window =>
    refine hsettings.window.taken 4294967295 ⟨by decide, _, rfl, ?_⟩
    exact Environment.isNumeral_iff.2 ⟨⟨by decide, by decide⟩, by decide⟩
  case port =>
    refine hsettings.servicePort.kept fun n hasked => ?_
    obtain ⟨hlt, text, htext, hnumeral⟩ := hasked
    cases htext
    have hvalue : 65536 = n := (Environment.isNumeral_iff.1 hnumeral).2
    exact absurd (hvalue ▸ hlt) (by decide)
  case capture =>
    refine hsettings.captureResponse.kept fun b hasked => ?_
    cases b <;> exact absurd hasked (by decide)

end Settings

end StreamTap
