import Funge93.Proofs.Arguments
import Mathlib.Data.List.Nodup

/-!
# Reading what a command line gives

The command lines that are accepted are those that give a choice that is allowed
(`parse_eq_ok_iff`).

Reading is taken for granting one wish after the other (`Reading.grant`), where a wish is refused
if another was granted before that is given by the same option. Whether all of some wishes are
granted does not depend on their order, and neither does what is held then
(`Reading.foldlM_grant_iff`). What keeps reading from being this already is that the last argument
is still pending. So wishes are granted to the reading as it is once settled, and every lemma about
reading on starts from a reading `r` that settles to `r₀`. A reading that does not settle is only
read on if an option lacks its value (`Reading.settles_or_supplied`), and then the next argument has
to be that value.
-/

namespace Funge93.CommandLine

theorem bind_eq_ok_iff {ε α β : Type} {x : Except ε α} {f : α → Except ε β} {b : β} :
    (x >>= f) = .ok b ↔ ∃ a, x = .ok a ∧ f a = .ok b := by
  cases x with
  | error e => exact iff_of_false nofun (by rintro ⟨a, h, -⟩; cases h)
  | ok a =>
      constructor
      · intro h
        exact ⟨a, rfl, h⟩
      · rintro ⟨a', h, hf⟩
        cases h
        exact hf

namespace Reading

variable {r r₀ r₁ r' : Reading} {w w' : Wish} {ws ws' : List Wish}

/-! ## Granting wishes -/

/-- Whether a wish has been granted. -/
def Has (r : Reading) : Wish → Prop
  | .program path => r.program = some path
  | .setting s n => r.get s = some n
  | .headless => r.headless = true

/-- Whether a wish has been granted that is given by the same option. -/
def taken (r : Reading) : Wish → Bool
  | .program _ => r.program.isSome
  | .setting s _ => (r.get s).isSome
  | .headless => r.headless

def give (r : Reading) : Wish → Reading
  | .program path => { r with program := some path }
  | .setting s n => r.set s n
  | .headless => { r with headless := true }

/-- Grants a wish, unless its option was taken before. -/
def grant (r : Reading) (w : Wish) : Option Reading :=
  if r.taken w then none else some (r.give w)

theorem get_set (r : Reading) (s s' : Setting) (n : Nat) :
    (r.set s n).get s' = if s' = s then some n else r.get s' := by
  cases s <;> cases s' <;> rfl

theorem taken_iff : r.taken w = true ↔ ∃ w', r.Has w' ∧ w'.name? = w.name? := by
  rcases w with path | ⟨s, n⟩ | _
  · rw [taken, Option.isSome_iff_exists]
    constructor
    · rintro ⟨path', h⟩
      exact ⟨.program path', h, rfl⟩
    · rintro ⟨w', h, hname⟩
      cases w' with
      | program path' => exact ⟨path', h⟩
      | setting s n => cases hname
      | headless => cases hname
  · rw [taken, Option.isSome_iff_exists]
    constructor
    · rintro ⟨n', h⟩
      exact ⟨.setting s n', h, rfl⟩
    · rintro ⟨w', h, hname⟩
      cases w' with
      | program path => cases hname
      | setting s' n' => exact ⟨n', Setting.name_injective (Option.some.inj hname) ▸ h⟩
      | headless => exact absurd (Option.some.inj hname).symm s.name_ne_headless
  · rw [taken]
    constructor
    · intro h
      exact ⟨.headless, h, rfl⟩
    · rintro ⟨w', h, hname⟩
      cases w' with
      | program path => cases hname
      | setting s n => exact absurd (Option.some.inj hname) s.name_ne_headless
      | headless => exact h

theorem has_give : (r.give w).Has w' ↔ if w'.name? = w.name? then w' = w else r.Has w' := by
  rcases w with path | ⟨s, n⟩ | _ <;> rcases w' with path' | ⟨s', n'⟩ | _
  · simp [give, Has, Wish.name?, eq_comm]
  · simp [give, Has, Wish.name?, get]
  · simp [give, Has, Wish.name?]
  · cases s <;> simp [give, Has, Wish.name?, set]
  · by_cases hs : s' = s
    · subst hs
      simp [give, Has, Wish.name?, get_set, eq_comm]
    · simp [give, Has, Wish.name?, get_set, hs, mt Setting.name_injective hs]
  · cases s <;> simp [give, Has, Wish.name?, set, Setting.name]
  · simp [give, Has, Wish.name?]
  · cases s' <;> simp [give, Has, Wish.name?, get, Setting.name]
  · simp [give, Has]

theorem pending_give (r : Reading) (w : Wish) : (r.give w).pending = r.pending := by
  rcases w with path | ⟨s, n⟩ | _
  · rfl
  · cases s <;> rfl
  · rfl

theorem grant_eq_some_iff :
    r.grant w = some r' ↔ (∀ w', r.Has w' → w'.name? ≠ w.name?) ∧ r.give w = r' := by
  rw [grant]
  split
  · next h =>
      obtain ⟨w', hhas, hname⟩ := taken_iff.mp h
      exact iff_of_false nofun fun hfresh => hfresh.1 w' hhas hname
  · next h =>
      rw [Option.some_inj]
      refine (and_iff_right fun w' hhas hname => h (taken_iff.mpr ⟨w', hhas, hname⟩)).symm

/-- A reading is told by what it has and by what is pending. -/
theorem eq_of_has (hpending : r.pending = r'.pending) (h : ∀ w, r.Has w ↔ r'.Has w) :
    r = r' := by
  have hget : ∀ s, r.get s = r'.get s := fun s => Option.ext fun n => h (.setting s n)
  have hprogram : r.program = r'.program := Option.ext fun path => h (.program path)
  have hheadless : r.headless = r'.headless := Bool.eq_iff_iff.mpr (h .headless)
  have hdelay := hget .delay
  have hseed := hget .seed
  have hmaxSteps := hget .maxSteps
  obtain ⟨program, delay, seed, maxSteps, headless, pending⟩ := r
  simp only [get] at *
  subst hprogram hdelay hseed hmaxSteps hheadless hpending
  rfl

/-- One reading is the other with some wishes granted: with those and no others, none of them
given twice. -/
structure Granted (r : Reading) (ws : List Wish) (r' : Reading) : Prop where
  pending : r'.pending = r.pending
  fresh : ∀ w ∈ ws, ∀ w', r.Has w' → w'.name? ≠ w.name?
  once : (ws.map Wish.name?).Nodup
  has : ∀ w, r'.Has w ↔ r.Has w ∨ w ∈ ws

theorem granted_of_grant (h : r.grant w = some r') : r.Granted [w] r' := by
  obtain ⟨hfresh, rfl⟩ := grant_eq_some_iff.mp h
  refine ⟨pending_give r w, ?_, List.nodup_cons.mpr ⟨List.not_mem_nil, .nil⟩, ?_⟩
  · intro w₁ hw
    rwa [List.mem_singleton.mp hw]
  · intro w'
    rw [has_give, List.mem_singleton]
    split
    · next hname => exact (or_iff_right fun hhas => hfresh w' hhas hname).symm
    · next hname => exact (or_iff_left fun hw => hname (congrArg Wish.name? hw)).symm

theorem foldlM_grant_cons_iff :
    (w :: ws).foldlM grant r = some r' ↔
      ∃ r₁, r.grant w = some r₁ ∧ ws.foldlM grant r₁ = some r' := by
  rw [List.foldlM_cons, Option.bind_eq_bind, Option.bind_eq_some_iff]

/-- Wishes are granted one after the other just when none of them is in the way of another, so
their order does not matter. -/
theorem foldlM_grant_iff : ws.foldlM grant r = some r' ↔ r.Granted ws r' := by
  induction ws generalizing r with
  | nil =>
      constructor
      · intro h
        cases h
        exact ⟨rfl, nofun, .nil, fun w => by simp⟩
      · intro h
        exact congrArg some (eq_of_has h.pending.symm fun w => by simp [h.has])
  | cons w ws ih =>
      rw [foldlM_grant_cons_iff]
      constructor
      · rintro ⟨r₁, hw, hws⟩
        obtain ⟨hpending, hfresh, -, hhas⟩ := granted_of_grant hw
        obtain ⟨hpending', hfresh', honce', hhas'⟩ := ih.mp hws
        refine ⟨hpending'.trans hpending, ?_, ?_, ?_⟩
        · intro w₂ hw₂ w' hw'
          rcases List.mem_cons.mp hw₂ with rfl | hmem
          · exact hfresh _ List.mem_cons_self w' hw'
          · exact hfresh' w₂ hmem w' ((hhas w').mpr (.inl hw'))
        · refine List.nodup_cons.mpr ⟨fun hmem => ?_, honce'⟩
          obtain ⟨w₂, hw₂, hname⟩ := List.mem_map.mp hmem
          exact hfresh' w₂ hw₂ w ((hhas w).mpr (.inr List.mem_cons_self)) hname.symm
        · intro w'
          rw [hhas', hhas, List.mem_singleton, List.mem_cons, or_assoc]
      · rintro ⟨hpending, hfresh, honce, hhas⟩
        rw [List.map_cons, List.nodup_cons] at honce
        have hw : r.grant w = some (r.give w) :=
          grant_eq_some_iff.mpr ⟨hfresh w List.mem_cons_self, rfl⟩
        obtain ⟨hpending', -, -, hhas'⟩ := granted_of_grant hw
        refine ⟨_, hw, ih.mpr ⟨hpending.trans hpending'.symm, ?_, honce.2, ?_⟩⟩
        · intro w₂ hw₂ w' hw' hname
          rcases (hhas' w').mp hw' with hr | hr
          · exact hfresh w₂ (List.mem_cons_of_mem w hw₂) w' hr hname
          · rw [List.mem_singleton.mp hr] at hname
            exact honce.1 (List.mem_map.mpr ⟨w₂, hw₂, hname.symm⟩)
        · intro w'
          rw [hhas, hhas', List.mem_singleton, List.mem_cons, or_assoc]

/-! ## One argument after the other -/

theorem settle_of_pending_none (h : r.pending = none) : r.settle = .ok r := by
  rw [settle, h]

theorem assign_eq_ok_iff {s : Setting} {text : String} :
    r.assign s text = .ok r' ↔ ∃ n, SpellsWord text n ∧ r.grant (.setting s n) = some r' := by
  rw [assign]
  split
  · next h =>
      refine iff_of_false nofun ?_
      rintro ⟨n, -, hgrant⟩
      rw [grant, taken, if_pos h] at hgrant
      cases hgrant
  · next h =>
      have hgrant : ∀ n, r.grant (.setting s n) = some (r.set s n) := fun n => if_neg h
      split
      · next hnumber =>
          refine iff_of_false nofun ?_
          rintro ⟨n, hn, -⟩
          rw [number?_eq_some_iff.mpr hn] at hnumber
          cases hnumber
      · next n hnumber =>
          constructor
          · intro h'
            cases h'
            exact ⟨n, number?_eq_some_iff.mp hnumber, hgrant n⟩
          · rintro ⟨n', hn', hgrant'⟩
            rw [number?_eq_some_iff.mpr hn'] at hnumber
            cases hnumber
            rw [hgrant, Option.some_inj] at hgrant'
            rw [hgrant']

theorem pending_of_grant (h : r.grant w = some r') : r'.pending = r.pending :=
  (granted_of_grant h).pending

theorem pending_of_settle (h : r.settle = .ok r₀) : r₀.pending = none := by
  rw [settle] at h
  split at h
  · next hpending =>
      cases h
      exact hpending
  · split at h
    · cases h
    · cases h
      rfl
  · cases h
  · obtain ⟨n, -, hgrant⟩ := assign_eq_ok_iff.mp h
    exact pending_of_grant hgrant

/-- What has been granted is settled. -/
theorem settle_of_grant (hw : r₀.grant w = some r₁) (hr : r.settle = .ok r₀) :
    r₁.settle = .ok r₁ :=
  settle_of_pending_none ((pending_of_grant hw).trans (pending_of_settle hr))

theorem hasProgram_of_settle (h : r.settle = .ok r₀) : r.hasProgram = r₀.program.isSome := by
  rw [settle] at h
  rw [hasProgram]
  split at h
  · next hpending =>
      cases h
      rw [hpending]
  · next hpending =>
      rw [hpending]
      split at h
      · cases h
      · cases h
        rfl
  · cases h
  · next s text hpending =>
      rw [hpending]
      obtain ⟨n, -, hgrant⟩ := assign_eq_ok_iff.mp h
      obtain ⟨-, rfl⟩ := grant_eq_some_iff.mp hgrant
      cases s <;> rfl

theorem settle_program_iff {path : String} (hr : r.pending = none) :
    settle { r with pending := some (.program path) } = .ok r' ↔
      path ≠ "" ∧ { r with program := some path } = r' := by
  simp only [settle, String.isEmpty_iff]
  split
  · next hpath => exact iff_of_false nofun fun h => h.1 hpath
  · next hpath =>
      rw [← hr, Except.ok.injEq]
      exact (and_iff_right hpath).symm

theorem settle_setting {s : Setting} {text : String} (hr : r.pending = none) :
    settle { r with pending := some (.setting s (some text)) } = r.assign s text := by
  rw [settle]
  exact congrArg (fun p => assign { r with pending := p } s text) hr.symm

theorem readProgram_eq_ok_iff {path : String} (h : r.settle = .ok r₀) :
    r.readProgram path = .ok r' ↔
      r₀.program = none ∧ { r₀ with pending := some (.program path) } = r' := by
  simp only [readProgram, hasProgram_of_settle h, h]
  split
  · next hprogram => exact iff_of_false nofun fun hn => by simp [hn.1] at hprogram
  · next hprogram =>
      rw [Option.not_isSome_iff_eq_none] at hprogram
      exact (Except.ok.injEq _ _).to_iff.trans (and_iff_right hprogram).symm

/-- A program is noted first and granted when it is settled. -/
theorem readProgram_settle_iff {path : String} (h : r.settle = .ok r₀) :
    (r.readProgram path >>= settle) = .ok r₁ ↔
      path ≠ "" ∧ r₀.grant (.program path) = some r₁ := by
  have hpending := pending_of_settle h
  rw [bind_eq_ok_iff]
  constructor
  · rintro ⟨r', hread, hr'⟩
    obtain ⟨hnone, rfl⟩ := (readProgram_eq_ok_iff h).mp hread
    obtain ⟨hne, rfl⟩ := (settle_program_iff hpending).mp hr'
    exact ⟨hne, if_neg (by simp [taken, hnone])⟩
  · rintro ⟨hne, hgrant⟩
    rw [grant] at hgrant
    split at hgrant
    · cases hgrant
    · next hnone =>
        rw [taken, Option.not_isSome_iff_eq_none] at hnone
        exact ⟨_, (readProgram_eq_ok_iff h).mpr ⟨hnone, rfl⟩,
          (settle_program_iff hpending).mpr ⟨hne, Option.some.inj hgrant⟩⟩

theorem readLong_name (s : Setting) (text : String) (h : r.settle = .ok r₀) :
    r.readLong s.name (some text) = r₀.assign s text := by
  simp only [readLong, Setting.ofName?_name, h]
  rfl

theorem readLong_name_none (s : Setting) (h : r.settle = .ok r₀) :
    r.readLong s.name none = .ok { r₀ with pending := some (.setting s none) } := by
  simp only [readLong, Setting.ofName?_name, h]
  rfl

theorem readLong_headless_iff (h : r.settle = .ok r₀) :
    r.readLong "headless" none = .ok r' ↔ r₀.grant .headless = some r' := by
  have hread : r.readLong "headless" none = r.readHeadless := rfl
  rw [hread, readHeadless, h]
  obtain ⟨program, delay, seed, maxSteps, headless, pending⟩ := r₀
  cases headless with
  | true => exact iff_of_false nofun nofun
  | false => exact (Except.ok.injEq _ _).to_iff.trans Option.some_inj.symm

theorem readHelp_ne_ok : r.readHelp ≠ .ok r' := by
  intro h
  obtain ⟨_, -, h⟩ := bind_eq_ok_iff.mp h
  cases h

/-! An argument is only read where everything in front of it can be settled. -/

theorem settles_of_readProgram {path : String} (h : r.readProgram path = .ok r') :
    ∃ r₀, r.settle = .ok r₀ := by
  rw [readProgram] at h
  split at h
  · cases h
  · obtain ⟨r₀, hr, -⟩ := bind_eq_ok_iff.mp h
    exact ⟨r₀, hr⟩

theorem settles_of_readLong {name : String} {value : Option String}
    (h : r.readLong name value = .ok r') :
    (∃ r₀, r.settle = .ok r₀) ∧
      ((∃ s : Setting, name = s.name) ∨ name = "headless" ∧ value = none) := by
  rw [readLong.eq_def] at h
  split at h
  · next s text hname =>
      obtain ⟨r₀, hr, -⟩ := bind_eq_ok_iff.mp h
      exact ⟨⟨r₀, hr⟩, .inl ⟨s, Setting.eq_name_of_ofName? hname⟩⟩
  · next s hname =>
      obtain ⟨r₀, hr, -⟩ := bind_eq_ok_iff.mp h
      exact ⟨⟨r₀, hr⟩, .inl ⟨s, Setting.eq_name_of_ofName? hname⟩⟩
  · split at h
    · cases h
    · next hknown =>
        split at h
        · cases h
        · next hvalue =>
            split at h
            · exact absurd h readHelp_ne_ok
            · next hhelp =>
                obtain ⟨r₀, hr, -⟩ := bind_eq_ok_iff.mp h
                refine ⟨⟨r₀, hr⟩, .inr ⟨?_, Option.not_isSome_iff_eq_none.mp hvalue⟩⟩
                by_contra hheadless
                rw [beq_iff_eq] at hhelp
                exact hknown (by simp [hheadless, hhelp])

theorem readShort_ne_ok {letter : Char} : r.readShort letter ≠ .ok r' := by
  rw [readShort]
  split
  · exact readHelp_ne_ok
  · nofun

/-- Reading does not get past something that cannot be settled, except for an option that still
lacks its value. The next argument is taken for that. -/
theorem settles_or_supplied {args : List String} (h : readAll false r args = .ok r')
    (hend : r'.settle = .ok r₁) :
    (∃ r₀, r.settle = .ok r₀) ∨
      ∃ s text rest, r.pending = some (.setting s none) ∧ args = text :: rest ∧
        readAll false { r with pending := some (.setting s (some text)) } rest = .ok r' := by
  cases args with
  | nil =>
      cases h
      exact .inl ⟨r₁, hend⟩
  | cons arg rest =>
      rw [readAll] at h
      split at h
      · cases rest with
        | nil =>
            cases h
            exact .inl ⟨r₁, hend⟩
        | cons path rest =>
            obtain ⟨r₂, hread, -⟩ := bind_eq_ok_iff.mp h
            exact .inl (settles_of_readProgram hread)
      · obtain ⟨r₂, hread, -⟩ := bind_eq_ok_iff.mp h
        exact .inl (settles_of_readLong hread).1
      · obtain ⟨r₂, hread, -⟩ := bind_eq_ok_iff.mp h
        exact absurd hread readShort_ne_ok
      · obtain ⟨r₂, hread, hrest⟩ := bind_eq_ok_iff.mp h
        rw [readPlain] at hread
        split at hread
        · next s hpending =>
            cases hread
            exact .inr ⟨s, arg, rest, hpending, rfl, hrest⟩
        · exact .inl (settles_of_readProgram hread)

/-- The value of an option that lacks it has to be a number, for it will be settled. -/
theorem assigned_of_lacking {s : Setting} {args : List String} (hr : r.pending = none)
    (h : readAll false { r with pending := some (.setting s none) } args = .ok r')
    (hend : r'.settle = .ok r₁) :
    ∃ text rest r₂, args = text :: rest ∧ r.assign s text = .ok r₂ ∧
      readAll false { r with pending := some (.setting s (some text)) } rest = .ok r' := by
  rcases settles_or_supplied h hend with ⟨r₀, hr₀⟩ | ⟨s', text, rest, hs', hargs, hrest⟩
  · cases hr₀
  · cases hs'
    rcases settles_or_supplied hrest hend with ⟨r₂, hr₂⟩ | ⟨s'', _, _, hs'', -⟩
    · rw [settle_setting hr] at hr₂
      exact ⟨text, rest, r₂, hargs, hr₂, hrest⟩
    · cases hs''

/-! ## All arguments -/

theorem readAll_long {arg name : String} {value : Option String} {rest : List String}
    (h : Shape.of arg = .long name value) :
    readAll false r (arg :: rest) = r.readLong name value >>= fun r' => readAll false r' rest := by
  rw [readAll, h]

theorem readAll_plain {arg : String} {rest : List String} (h : Plain arg) :
    readAll false r (arg :: rest) = r.readPlain arg >>= fun r' => readAll false r' rest := by
  rw [readAll, Shape.of_eq_plain_iff.mpr h]

theorem readAll_dashes {rest : List String} :
    readAll false r ("--" :: rest) = readAll true r rest := by
  rw [readAll, Shape.of_eq_endOfOptions_iff.mpr rfl]

theorem readPlain_of_settles {arg : String} (h : r.settle = .ok r₀) :
    r.readPlain arg = r.readProgram arg := by
  rw [readPlain]
  split
  · next s hpending =>
      rw [settle, hpending] at h
      cases h
  · rfl

/-- The arguments that wishes are written as are read as these wishes, whatever stands behind
them. -/
theorem read_written {args : List String} (h : Written ws args) (hr : r.settle = .ok r₀)
    (hgrant : ws.foldlM grant r₀ = some r₁) :
    ∃ r', r'.settle = .ok r₁ ∧
      ∀ rest, readAll false r (args ++ rest) = readAll false r' rest := by
  induction h generalizing r r₀ with
  | nil =>
      cases hgrant
      exact ⟨r, hr, fun _ => rfl⟩
  | program hne hplain h ih =>
      obtain ⟨r₂, hw, hws⟩ := foldlM_grant_cons_iff.mp hgrant
      obtain ⟨r', hread, hr'⟩ := bind_eq_ok_iff.mp ((readProgram_settle_iff hr).mpr ⟨hne, hw⟩)
      obtain ⟨r'', hend, hrest⟩ := ih hr' hws
      refine ⟨r'', hend, fun rest => ?_⟩
      rw [List.cons_append, readAll_plain hplain, readPlain_of_settles hr, hread]
      exact hrest rest
  | @apart s text n ws args hn h ih =>
      have hshape : Shape.of ("--" ++ s.name) = .long s.name none := Setting.of_longText s none
      obtain ⟨r₂, hw, hws⟩ := foldlM_grant_cons_iff.mp hgrant
      have hassign := assign_eq_ok_iff.mpr ⟨_, hn, hw⟩
      rw [← settle_setting (pending_of_settle hr)] at hassign
      obtain ⟨r'', hend, hrest⟩ := ih hassign hws
      refine ⟨r'', hend, fun rest => ?_⟩
      rw [List.cons_append, List.cons_append, readAll_long hshape, readLong_name_none s hr]
      refine (readAll_plain hn.plain).trans ?_
      exact hrest rest
  | @joined s text n ws args hn h ih =>
      have hshape : Shape.of ("--" ++ s.name ++ "=" ++ text) = .long s.name (some text) :=
        Setting.of_longText s (some text)
      obtain ⟨r₂, hw, hws⟩ := foldlM_grant_cons_iff.mp hgrant
      obtain ⟨r'', hend, hrest⟩ := ih (settle_of_grant hw hr) hws
      refine ⟨r'', hend, fun rest => ?_⟩
      rw [List.cons_append, readAll_long hshape, readLong_name s text hr,
        assign_eq_ok_iff.mpr ⟨n, hn, hw⟩]
      exact hrest rest
  | headless h ih =>
      obtain ⟨r₂, hw, hws⟩ := foldlM_grant_cons_iff.mp hgrant
      obtain ⟨r'', hend, hrest⟩ := ih (settle_of_grant hw hr) hws
      refine ⟨r'', hend, fun rest => ?_⟩
      rw [List.cons_append, readAll_long Shape.of_headless, (readLong_headless_iff hr).mpr hw]
      exact hrest rest

/-- So is what stands behind them. -/
theorem read_ending {tail : List String} (h : Ending ws tail) (hr : r.settle = .ok r₀)
    (hgrant : ws.foldlM grant r₀ = some r₁) :
    (readAll false r tail >>= settle) = .ok r₁ := by
  cases h with
  | none =>
      cases hgrant
      exact hr
  | dashes =>
      cases hgrant
      rw [readAll_dashes]
      exact hr
  | program hne =>
      obtain ⟨r₂, hw, hws⟩ := foldlM_grant_cons_iff.mp hgrant
      cases hws
      obtain ⟨r', hread, hr'⟩ := bind_eq_ok_iff.mp ((readProgram_settle_iff hr).mpr ⟨hne, hw⟩)
      rw [readAll_dashes, readAll, hread]
      exact hr'

theorem ending_of_read {rest : List String} (hr : r.settle = .ok r₀)
    (h : readAll true r rest = .ok r') (hend : r'.settle = .ok r₁) :
    ∃ ws, Ending ws ("--" :: rest) ∧ ws.foldlM grant r₀ = some r₁ := by
  cases rest with
  | nil =>
      cases h
      rw [hr] at hend
      cases hend
      exact ⟨[], .dashes, rfl⟩
  | cons path rest =>
      obtain ⟨r₂, hread, hrest⟩ := bind_eq_ok_iff.mp h
      cases rest with
      | nil =>
          cases hrest
          obtain ⟨hne, hw⟩ :=
            (readProgram_settle_iff hr).mp (bind_eq_ok_iff.mpr ⟨_, hread, hend⟩)
          exact ⟨[.program path], .program hne, foldlM_grant_cons_iff.mpr ⟨_, hw, rfl⟩⟩
      | cons path' rest =>
          -- There is no room for a second program.
          obtain ⟨-, rfl⟩ := (readProgram_eq_ok_iff hr).mp hread
          obtain ⟨r₃, hread', -⟩ := bind_eq_ok_iff.mp hrest
          cases hread'

/-- Arguments that can be read were written as wishes, with one of the endings behind them. -/
theorem written_of_read {args : List String} (hr : r.settle = .ok r₀)
    (h : readAll false r args = .ok r') (hend : r'.settle = .ok r₁) :
    ∃ front behind args' tail, Written front args' ∧ Ending behind tail ∧ args = args' ++ tail ∧
      (front ++ behind).foldlM grant r₀ = some r₁ := by
  -- An option that lacks its value takes the next argument with it, so two are read at once.
  induction hlength : args.length using Nat.strong_induction_on generalizing args r r₀ with
  | _ length ih =>
  subst hlength
  cases args with
  | nil =>
      cases h
      rw [hr] at hend
      cases hend
      exact ⟨[], [], [], [], .nil, .none, rfl, rfl⟩
  | cons arg rest =>
      cases hshape : Shape.of arg with
      | endOfOptions =>
          obtain rfl := Shape.of_eq_endOfOptions_iff.mp hshape
          rw [readAll_dashes] at h
          obtain ⟨ws, hending, hgrant⟩ := ending_of_read hr h hend
          exact ⟨[], ws, [], _, .nil, hending, rfl, hgrant⟩
      | long name value =>
          obtain rfl := Shape.eq_longText hshape
          rw [readAll_long hshape] at h
          obtain ⟨r₂, hread, hrest⟩ := bind_eq_ok_iff.mp h
          rcases (settles_of_readLong hread).2 with ⟨s, rfl⟩ | ⟨rfl, rfl⟩
          · cases value with
            | some text =>
                rw [readLong_name s text hr] at hread
                obtain ⟨n, hn, hw⟩ := assign_eq_ok_iff.mp hread
                obtain ⟨front, behind, args', tail, hwritten, hending, rfl, hgrant⟩ :=
                  ih _ (Nat.lt_succ_self _) (settle_of_grant hw hr) hrest rfl
                exact ⟨.setting s n :: front, behind, _, tail, .joined hn hwritten, hending, rfl,
                  foldlM_grant_cons_iff.mpr ⟨_, hw, hgrant⟩⟩
            | none =>
                rw [readLong_name_none s hr] at hread
                cases hread
                obtain ⟨text, rest', r₃, rfl, hassign, hrest'⟩ :=
                  assigned_of_lacking (pending_of_settle hr) hrest hend
                obtain ⟨n, hn, hw⟩ := assign_eq_ok_iff.mp hassign
                rw [← settle_setting (pending_of_settle hr)] at hassign
                obtain ⟨front, behind, args', tail, hwritten, hending, rfl, hgrant⟩ :=
                  ih _ (Nat.lt_succ_of_lt (Nat.lt_succ_self _)) hassign hrest' rfl
                exact ⟨.setting s n :: front, behind, _, tail, .apart hn hwritten, hending, rfl,
                  foldlM_grant_cons_iff.mpr ⟨_, hw, hgrant⟩⟩
          · have hw := (readLong_headless_iff hr).mp hread
            obtain ⟨front, behind, args', tail, hwritten, hending, rfl, hgrant⟩ :=
              ih _ (Nat.lt_succ_self _) (settle_of_grant hw hr) hrest rfl
            exact ⟨.headless :: front, behind, _, tail, .headless hwritten, hending, rfl,
              foldlM_grant_cons_iff.mpr ⟨_, hw, hgrant⟩⟩
      | short letter =>
          rw [readAll, hshape] at h
          obtain ⟨r₂, hread, -⟩ := bind_eq_ok_iff.mp h
          exact absurd hread readShort_ne_ok
      | plain =>
          have hplain := Shape.of_eq_plain_iff.mp hshape
          rw [readAll_plain hplain, readPlain_of_settles hr] at h
          obtain ⟨r₂, hread, hrest⟩ := bind_eq_ok_iff.mp h
          have hpending : r₂.pending = some (.program arg) := by
            obtain ⟨-, rfl⟩ := (readProgram_eq_ok_iff hr).mp hread
            rfl
          rcases settles_or_supplied hrest hend with ⟨r₃, hr₃⟩ | ⟨s, _, _, hs, -⟩
          · obtain ⟨hne, hw⟩ :=
              (readProgram_settle_iff hr).mp (bind_eq_ok_iff.mpr ⟨r₂, hread, hr₃⟩)
            obtain ⟨front, behind, args', tail, hwritten, hending, rfl, hgrant⟩ :=
              ih _ (Nat.lt_succ_self _) hr₃ hrest rfl
            exact ⟨.program arg :: front, behind, _, tail, .program hne hplain hwritten, hending,
              rfl, foldlM_grant_cons_iff.mpr ⟨_, hw, hgrant⟩⟩
          · rw [hpending] at hs
            cases hs

theorem not_has_start : ¬start.Has w := by
  rcases w with path | ⟨s, n⟩ | _
  · nofun
  · cases s <;> nofun
  · nofun

end Reading

/-! ## The command line as a whole -/

section Whole

variable {args : List String} {c : Choice} {o : Options}

/-- What is held when all of a choice has been granted. -/
def Choice.reading (c : Choice) : Reading where
  program := some c.program
  delay := c.delay
  seed := c.seed
  maxSteps := c.maxSteps
  headless := c.headless
  pending := none

theorem Choice.reading_has {w : Wish} :
    c.reading.Has w ↔ w ∈ Wish.program c.program :: c.wishes := by
  rw [List.mem_cons, mem_wishes_iff]
  rcases w with path | ⟨s, n⟩ | _
  · simp [Reading.Has, reading, eq_comm]
  · cases s <;> simp [Reading.Has, Reading.get, reading]
  · simp [Reading.Has, reading]

theorem Choice.granted_iff {ws : List Wish} :
    Reading.start.Granted ws c.reading ↔ ws.Perm (.program c.program :: c.wishes) := by
  constructor
  · intro h
    refine (List.perm_ext_iff_of_nodup (List.Nodup.of_map _ h.once)
      (List.Nodup.of_map _ c.nodup_names)).mpr fun w => ?_
    rw [← reading_has, h.has, or_iff_right Reading.not_has_start]
  · intro h
    refine ⟨rfl, fun w hw w' hw' => absurd hw' Reading.not_has_start,
      (h.map Wish.name?).nodup_iff.mpr c.nodup_names, fun w => ?_⟩
    rw [reading_has, or_iff_right Reading.not_has_start, h.mem_iff]

theorem Choice.finish_iff : c.reading.finish = .ok o ↔ c.Allowed ∧ c.options = o := by
  obtain ⟨path, delay, seed, maxSteps, headless⟩ := c
  rw [Reading.finish.eq_def]
  change (if (maxSteps.isSome && !headless) = true then _ else _) = _ ↔ _
  split
  · next h =>
      refine iff_of_false nofun fun hallowed => ?_
      simp only [Bool.and_eq_true, Bool.not_eq_true'] at h
      have hheadless : headless = true := hallowed.1 h.1
      rw [hheadless] at h
      cases h.2
  · next h =>
      have hallowed : Allowed ⟨path, delay, seed, maxSteps, headless⟩ := by
        intro hmaxSteps
        change headless = true
        simpa [show maxSteps.isSome = true from hmaxSteps] using h
      exact (Except.ok.injEq _ _).to_iff.trans (and_iff_right hallowed).symm

/-- The command lines that are accepted are those that give a choice that is allowed. -/
theorem parse_eq_ok_iff : parse args = .ok o ↔ ∃ c, Gives args c ∧ c.Allowed ∧ c.options = o := by
  have hstart : Reading.start.settle = .ok Reading.start := rfl
  constructor
  · intro h
    obtain ⟨r', hread, h⟩ := bind_eq_ok_iff.mp h
    obtain ⟨r₁, hend, hfinish⟩ := bind_eq_ok_iff.mp h
    obtain ⟨front, behind, args', tail, hwritten, hending, rfl, hgrant⟩ :=
      Reading.written_of_read hstart hread hend
    have hgranted := Reading.foldlM_grant_iff.mp hgrant
    have hpending : r₁.pending = none := hgranted.pending
    cases hprogram : r₁.program with
    | none =>
        rw [Reading.finish, hprogram] at hfinish
        cases hfinish
    | some path =>
        obtain ⟨c, rfl⟩ : ∃ c : Choice, r₁ = c.reading := by
          obtain ⟨program, delay, seed, maxSteps, headless, pending⟩ := r₁
          cases hpending
          cases hprogram
          exact ⟨⟨path, delay, seed, maxSteps, headless⟩, rfl⟩
        exact ⟨c, .mk hwritten hending (Choice.granted_iff.mp hgranted),
          Choice.finish_iff.mp hfinish⟩
  · rintro ⟨c, ⟨hwritten, hending, hws⟩, hallowed, rfl⟩
    have hgrant := Reading.foldlM_grant_iff.mpr (Choice.granted_iff.mpr hws)
    rw [List.foldlM_append, Option.bind_eq_bind, Option.bind_eq_some_iff] at hgrant
    obtain ⟨r₁, hfront, hbehind⟩ := hgrant
    obtain ⟨r', hr', hrest⟩ := Reading.read_written hwritten hstart hfront
    obtain ⟨r'', hread, hr''⟩ := bind_eq_ok_iff.mp (Reading.read_ending hending hr' hbehind)
    refine bind_eq_ok_iff.mpr ⟨r'', (hrest _).trans hread, bind_eq_ok_iff.mpr ⟨_, hr'', ?_⟩⟩
    exact Choice.finish_iff.mpr ⟨hallowed, rfl⟩

end Whole

end Funge93.CommandLine
