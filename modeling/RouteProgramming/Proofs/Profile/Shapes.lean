import RouteProgramming.Profile
import RouteProgramming.Proofs.TextFormat.Lines

/-! Where the errors of a profile's text point. A text that is no message has its
error on one of its lines, and so has a version that is no number. A value of the
wrong shape, a scalar for a message or anything but a quoted text for a name or a
path, is reported on line zero, which no text has. -/

namespace RouteProgramming.Profile

open TextFormat

variable {context : String} {v : Value} {line : Nat} {fault : LineFault} {f : TextFormat.Field Value}

/-! ### Wrong shapes -/

/-- A value that cannot be read as an id or a path, and the line and the fault of its error. -/
inductive Misshapen (context : String) : Value → Nat → LineFault → Prop
  | scalar {text : String} {quoted : Bool} : Misshapen context (.scalar text quoted) 0 (.notMessage context)
  | unquoted {fields : Message} {g : TextFormat.Field Value} (hg : g ∈ fields) (hname : g.name ∈ ["name", "path"])
    (hvalue : ∀ text, g.value ≠ .scalar text true) :
    Misshapen context (.message fields) 0 (.notString (context ++ ("." ++ g.name)))
  | number {fields : Message} {g : TextFormat.Field Value} {text : String} {cause : Text.Decimal.Malformed}
    (hg : g ∈ fields) (hname : g.name = "version") (hvalue : g.value = .scalar text false)
    (malformed : Text.Decimal.unsigned 4294967296 text.toList = .error cause) :
    Misshapen context (.message fields) g.line (.badNumber (context ++ ".version") cause)
  | integer {fields : Message} {g : TextFormat.Field Value} (hg : g ∈ fields) (hname : g.name = "version")
    (hvalue : ∀ text, g.value ≠ .scalar text false) :
    Misshapen context (.message fields) g.line (.notInteger (context ++ ".version"))

/-- A fault of a value whose line is not kept. -/
def Shapeless (fault : LineFault) : Prop := ∃ field, fault = .notMessage field ∨ fault = .notString field

/-- A list that cannot be folded has an element at which the fold stops. -/
theorem exists_of_foldlM_error {α β ε : Type} {step : β → α → Except ε β} {xs : List α} {b : β} {e : ε}
    (h : xs.foldlM step b = .error e) : ∃ x ∈ xs, ∃ b', step b' x = .error e := by
  induction xs generalizing b with
  | nil => cases h
  | cons x xs ih =>
    rw [List.foldlM_cons] at h
    cases hx : step b x with
    | error e' =>
      rw [hx] at h
      cases h
      exact ⟨x, List.mem_cons_self, b, hx⟩
    | ok b' =>
      rw [hx] at h
      obtain ⟨y, hy, hstep⟩ := ih h
      exact ⟨y, List.mem_cons_of_mem _ hy, hstep⟩

/-- What stops one thing after the other. -/
theorem bind_eq_error {α β ε : Type} {x : Except ε α} {k : α → Except ε β} {e : ε} (h : x >>= k = .error e) :
    x = .error e ∨ ∃ a, x = .ok a ∧ k a = .error e := by
  cases x with
  | error e' => cases h; exact .inl rfl
  | ok a => exact .inr ⟨a, rfl, h⟩

theorem map_eq_error {α β ε : Type} {x : Except ε α} {k : α → β} {e : ε} (h : x.map k = .error e) : x = .error e := by
  cases x with
  | error e' => cases h; rfl
  | ok a => cases h

theorem misshapen_of_messageOf (h : messageOf context v = .error (.parse line fault)) :
    Misshapen context v line fault := by
  cases v with
  | scalar text quoted => cases h; exact .scalar
  | message fields => cases h

theorem misshapen_of_stringOf {fields : Message} {g : TextFormat.Field Value} (hg : g ∈ fields)
    (hname : g.name ∈ ["name", "path"])
    (h : stringOf (context ++ ("." ++ g.name)) g.value = .error (.parse line fault)) :
    Misshapen context (.message fields) line fault := by
  unfold stringOf at h
  split at h
  case h_1 => cases h
  case h_2 hvalue =>
    cases h
    exact .unquoted hg hname hvalue

theorem misshapen_of_versionOf {fields : Message} {g : TextFormat.Field Value} (hg : g ∈ fields)
    (hname : g.name = "version")
    (h : versionOf (context ++ ".version") g.line g.value = .error (.parse line fault)) :
    Misshapen context (.message fields) line fault := by
  unfold versionOf at h
  split at h
  case h_1 text hvalue =>
    split at h
    case h_1 => cases h
    case h_2 cause malformed =>
      cases h
      exact .number hg hname hvalue malformed
  case h_2 hvalue =>
    cases h
    exact .integer hg hname hvalue

theorem demand_ne_parse {α : Type} {field : String} {o : Option α} : demand field o ≠ .error (.parse line fault) := by
  cases o <;> exact nofun

theorem eq_message_of_messageOf {fields : Message} (h : messageOf context v = .ok fields) : v = .message fields := by
  cases v with
  | scalar text quoted => cases h
  | message fields => cases h; rfl

theorem misshapen_of_readId (h : readId context v = .error (.parse line fault)) : Misshapen context v line fault := by
  rcases bind_eq_error h with hmessage | ⟨fields, hmessage, hfields⟩
  · exact misshapen_of_messageOf hmessage
  rw [eq_message_of_messageOf hmessage]
  rcases bind_eq_error hfields with hfold | ⟨⟨name, version⟩, -, hdemand⟩
  · obtain ⟨g, hg, ⟨name, version⟩, hstep⟩ := exists_of_foldlM_error hfold
    dsimp only at hstep
    split at hstep
    case h_1 hname =>
      refine misshapen_of_stringOf hg (by simp [hname]) ?_
      rw [hname]
      exact map_eq_error hstep
    case h_2 hname => exact misshapen_of_versionOf hg hname (map_eq_error hstep)
    case h_3 => cases hstep
  · rcases bind_eq_error hdemand with hname | ⟨name, -, hdemand⟩
    · exact absurd hname demand_ne_parse
    rcases bind_eq_error hdemand with hversion | ⟨version, -, hpure⟩
    · exact absurd hversion demand_ne_parse
    · cases hpure

theorem misshapen_of_readPath (h : readPath context v = .error (.parse line fault)) :
    Misshapen context v line fault := by
  rcases bind_eq_error h with hmessage | ⟨fields, hmessage, hfields⟩
  · exact misshapen_of_messageOf hmessage
  rw [eq_message_of_messageOf hmessage]
  rcases bind_eq_error hfields with hfold | ⟨path, -, hdemand⟩
  · obtain ⟨g, hg, path, hstep⟩ := exists_of_foldlM_error hfold
    split at hstep
    case h_1 hname =>
      refine misshapen_of_stringOf hg (by simp [hname]) ?_
      rw [hname]
      exact map_eq_error hstep
    case h_2 => cases hstep
  · exact absurd hdemand demand_ne_parse

/-- The fields of a profile. -/
def fieldNames : List String := ["id", "config_path", "telemetry_path", "feature_profile_dependency"]

theorem misshapen_of_readField {d : Draft} (h : readField d f = .error (.parse line fault)) :
    f.name ∈ fieldNames ∧ Misshapen f.name f.value line fault := by
  unfold readField at h
  split at h
  case h_1 hname =>
    rw [hname]
    exact ⟨by decide, misshapen_of_readId (map_eq_error h)⟩
  case h_2 hname =>
    rw [hname]
    exact ⟨by decide, misshapen_of_readPath (map_eq_error h)⟩
  case h_3 hname =>
    rw [hname]
    exact ⟨by decide, misshapen_of_readPath (map_eq_error h)⟩
  case h_4 hname =>
    rw [hname]
    exact ⟨by decide, misshapen_of_readId (map_eq_error h)⟩
  case h_5 => cases h

theorem misshapen_of_ofMessage {m : Message} (h : ofMessage m = .error (.parse line fault)) :
    ∃ f ∈ m, f.name ∈ fieldNames ∧ Misshapen f.name f.value line fault := by
  rcases bind_eq_error h with h | ⟨d, -, h⟩
  · obtain ⟨f, hf, d, h⟩ := exists_of_foldlM_error h
    exact ⟨f, hf, misshapen_of_readField h⟩
  rcases bind_eq_error h with h | ⟨id, -, h⟩
  · exact absurd h demand_ne_parse
  · cases h

/-! ### Lines -/

theorem not_shapeless (message : ∀ field, fault ≠ .notMessage field) (string : ∀ field, fault ≠ .notString field) :
    ¬Shapeless fault := by
  rintro ⟨field, hfault | hfault⟩
  · exact message field hfault
  · exact string field hfault

/-- A value of the wrong shape is reported on line zero, and a version on its own line. -/
theorem Misshapen.lines {m : Message} (h : Misshapen context v line fault) (hf : f ∈ m) (hv : f.value = v) :
    (Shapeless fault ∧ line = 0) ∨ ¬Shapeless fault ∧ ∃ g ∈ Message.allFields m, line = g.line := by
  cases h with
  | scalar => exact .inl ⟨⟨_, .inl rfl⟩, rfl⟩
  | unquoted hg hname hvalue => exact .inl ⟨⟨_, .inr rfl⟩, rfl⟩
  | number hg hname hvalue malformed =>
    exact .inr ⟨not_shapeless nofun nofun, _, Message.mem_allFields_of_value hf hv hg, rfl⟩
  | integer hg hname hvalue =>
    exact .inr ⟨not_shapeless nofun nofun, _, Message.mem_allFields_of_value hf hv hg, rfl⟩

theorem checkPaths_ne_parse {paths : List String} : checkPaths paths ≠ .error (.parse line fault) := by
  induction paths with
  | nil => exact nofun
  | cons path paths ih =>
    rw [checkPaths]
    split
    case h_1 => exact ih
    case h_2 => exact nofun

theorem check_ne_parse {p : Profile} : p.check ≠ .error (.parse line fault) := by
  unfold check
  split
  case isTrue => exact nofun
  case isFalse => exact checkPaths_ne_parse

/-- An error of a text is that of the text or of a misshapen field. -/
theorem cases_of_parse {s : String} (h : parse s = .error (.parse line fault)) :
    (∃ e, Message.parse s = .error e ∧ line = e.line ∧ fault = .text e.fault) ∨
    ∃ m, Message.parse s = .ok m ∧ ∃ f ∈ m, f.name ∈ fieldNames ∧ Misshapen f.name f.value line fault := by
  unfold parse at h
  split at h
  case h_1 e he =>
    cases h
    exact .inl ⟨e, he, rfl, rfl⟩
  case h_2 m hm =>
    split at h
    case h_1 e he =>
      cases h
      exact .inr ⟨m, hm, misshapen_of_ofMessage he⟩
    case h_2 p hp =>
      exact absurd (map_eq_error h) check_ne_parse

/-- An error of a profile's text tells what is wrong with the text or with one of its fields. It is on a line of the
text, unless a value has the wrong shape; then it is on line zero. -/
theorem errors_on_lines (s : String) (line : Nat) (fault : LineFault) (h : parse s = .error (.parse line fault)) :
    ((∃ e, Message.parse s = .error e ∧ line = e.line ∧ fault = .text e.fault) ∨
      ∃ m, Message.parse s = .ok m ∧ ∃ f ∈ m, f.name ∈ fieldNames ∧ Misshapen f.name f.value line fault) ∧
    (1 ≤ line ∧ line ≤ lineBehind s.toList ↔ ¬Shapeless fault) ∧
    (¬Shapeless fault → ∃ p, p <+: s.toList ∧ line = lineBehind p) ∧
    (Shapeless fault → line = 0) := by
  have hcases := cases_of_parse h
  have hline : (Shapeless fault ∧ line = 0) ∨ ¬Shapeless fault ∧ ∃ p, p <+: s.toList ∧ line = lineBehind p := by
    rcases hcases with ⟨e, he, rfl, rfl⟩ | ⟨m, hm, f, hf, -, hshape⟩
    · exact .inr ⟨not_shapeless nofun nofun, line_of_parse_error he⟩
    · refine (hshape.lines hf rfl).imp_right fun ⟨hfault, g, hg, hline⟩ => ⟨hfault, ?_⟩
      obtain ⟨p, hp, hplace⟩ := line_of_parse hm hg
      exact ⟨p, (List.prefix_append p _).trans hp, hline.trans hplace⟩
  rcases hline with ⟨hshapeless, rfl⟩ | ⟨hshaped, p, hp, rfl⟩
  · exact ⟨hcases, by simp [hshapeless], fun h => absurd hshapeless h, fun _ => rfl⟩
  · refine ⟨hcases, iff_of_true ⟨one_le_lineBehind p, lineBehind_le hp⟩ hshaped, fun _ => ⟨p, hp, rfl⟩, ?_⟩
    exact fun h => absurd h hshaped

theorem errors_on_lines_version : parse "id \x7b\n version: x\n\x7d" =
      .error (.parse 2 (.badNumber "id.version" .badDigit)) ∧
    ∃ p, p <+: "id \x7b\n version: x\n\x7d".toList ∧ 2 = lineBehind p := by
  have hfailed : parse "id \x7b\n version: x\n\x7d" = .error (.parse 2 (.badNumber "id.version" .badDigit)) := rfl
  exact ⟨hfailed, (errors_on_lines _ _ _ hfailed).2.2.1 (not_shapeless nofun nofun)⟩

/-- A number where the id should be is reported on line zero, so not every error is on a line of its text. -/
theorem scalar_id_on_line_zero : parse "id: 1" = .error (.parse 0 (.notMessage "id")) ∧
    ¬∀ s line fault, parse s = .error (.parse line fault) → 1 ≤ line ∧ line ≤ lineBehind s.toList := by
  have hzero : parse "id: 1" = .error (.parse 0 (.notMessage "id")) := rfl
  exact ⟨hzero, fun hall => absurd (hall _ _ _ hzero).1 (by decide)⟩

end RouteProgramming.Profile
