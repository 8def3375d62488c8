import StatementPool.Proofs.Options.Json
import StatementPool.Proofs.Pool.Return
/-!
# Starting pools with valid options

Options are valid whatever characters the name of the workers has, as long as it is not blank. While the system spawns
each thread that is asked for, a start of a stopped pool with valid options comes back, and succeeds with as many live
workers as the options ask for, if there is no NUL in the name; with one it panics instead
(`ReachableWhile.start_of_valid`). `valid_options_panic` are such options, read from a text.
-/

namespace StatementPool

variable {o : Options} {w : World} {scripts : List (List Action)} {s s' : Pool} {t : ThreadId} {rest : List Frame}

theorem Options.pos_of_validate (h : o.validate = .ok ()) : 0 < o.maxThreads.toNat := by
  refine Nat.pos_of_ne_zero fun zero => ?_
  have none : o.maxThreads = 0 := UInt64.toNat_inj.1 zero
  rw [Options.validate, if_pos none] at h
  cases h

namespace Pool

theorem namesThreads_eq_true : namesThreads o = true ↔ '\x00' ∉ o.threadName.toList := by
  simp [namesThreads]

theorem namesThreads_eq_false : namesThreads o = false ↔ '\x00' ∈ o.threadName.toList := by
  simp [namesThreads]

/-- What a start of a stopped pool does that thread `t` makes on its frames `rest` in `s`. -/
structure NamedStart (o : Options) (t : ThreadId) (rest : List Frame) (s : Pool) : Prop where
  /-- It comes back, unless it can name its threads and was refused one. -/
  returns : ∀ a, Leads (During t rest) s a → ('\x00' ∉ o.threadName.toList → a.Granted) → ∃ b, Grants t rest a b
  succeeds : '\x00' ∉ o.threadName.toList → ∀ s', Grants t rest s s' →
    s'.framesOf t = giveAnswer (.outcome (.ok ())) rest ∧ s'.live = o.maxThreads.toNat ∧ 0 < s'.live
  panics : '\x00' ∈ o.threadName.toList → ∀ s', Serves t rest s s' →
    s'.framesOf t = giveAnswer .panicked rest ∧ s'.handles = []

/-- A start that cannot name its threads never gets past the look at the handles. -/
inductive Unnamed (s : Pool) : Frame → Pool → Prop where
  | looking {p a} (hp : p = .lock ∨ p = .check) (hs : s.Spares a) : Unnamed s (.start p) a

theorem unnamed_of_leads (h : ReachableWhile OneAtATime o w scripts s) (hn : namesThreads o = false)
    (ht : s.framesOf t = .start .lock :: rest) {a : Pool} (hl : Leads (During t rest) s a) :
    ∃ g, a.framesOf t = g :: rest ∧ Unnamed s g a := by
  refine hl.call ht h.here (.looking (.inl rfl) (.refl s)) (fun hq => by cases hq; rfl) ?_ ?_
  · rintro a g fs a₁ hl ⟨hp, hs⟩ hg hact hlen
    have options := (hl.reachable h.reachable).options
    cases hact with
    | startLock => exact ⟨_, rfl, .looking (.inr rfl) ⟨⟨hs.submitted, hs.discarded⟩, hs.handles, hs.stop, hs.queue⟩⟩
    | startBegin he hn' =>
      -- only a start that can name its threads gets any further
      rw [options, hn] at hn'
      cases hn'
    | startPanic | startRefused => simp at hlen
    | spawn | spawned | spawnFails | started | abandoned => simp at hp
  · rintro a b g ⟨hp, hs⟩ hab
    exact .looking hp (hs.trans hab)

/-- Without handles such a start panics. -/
theorem unnamed_answers (h : ReachableWhile OneAtATime o w scripts s) (hn : namesThreads o = false)
    (ht : s.framesOf t = .start .lock :: rest) (he : s.handles = []) (hs : Serves t rest s s') :
    s'.framesOf t = giveAnswer .panicked rest ∧ s'.handles = [] := by
  obtain ⟨a, hl, hret, -⟩ := hs
  obtain ⟨_, hg, ⟨hp, hspares⟩⟩ := unnamed_of_leads h hn ht hl
  obtain ⟨fs, a₁, hact, rfl, after, hlen⟩ := hret.own hg rfl
  cases hact with
  | startPanic => exact ⟨after, hspares.handles.trans he⟩
  | startRefused hne => exact absurd (hspares.handles.trans he) hne
  | startLock | startBegin => simp at hlen
  | spawn | spawned | spawnFails | started | abandoned => simp at hp

end Pool

/-- With one call at a time, a start of a stopped pool with valid options comes back if it is refused no worker; it then
succeeds with all the workers that the options ask for exactly when their name has no NUL. -/
theorem ReachableWhile.start_of_valid (hv : o.validate = .ok ()) (h : ReachableWhile Pool.OneAtATime o w scripts s)
    (ht : s.framesOf t = .start .lock :: rest) (he : s.handles = []) : s.NamedStart o t rest where
  returns a hl hg := by
    refine Pool.start_returns h ht hl fun _ => ?_
    by_cases hn : '\x00' ∈ o.threadName.toList
    · obtain ⟨_, ha, ⟨hp, -⟩⟩ := Pool.unnamed_of_leads h (Pool.namesThreads_eq_false.2 hn) ht hl
      exact Pool.granted_of_looking hp (hl.oneAtATime h.here) ha
    · exact hg hn
  succeeds hn s' hs := by
    obtain ⟨-, hanswer, hcomplete⟩ := Pool.start_succeeds h (Pool.namesThreads_eq_true.2 hn) ht he hs
    have hlive := (hs.serves.reachableWhile h).calm.live_eq_of_complete fun _ => hcomplete
    exact ⟨hanswer, hlive, hlive ▸ Options.pos_of_validate hv⟩
  panics hn s' hs := Pool.unnamed_answers h (Pool.namesThreads_eq_false.2 hn) ht he hs

/-- Two workers with a quoted name. -/
def quotedPair : Options := ⟨2, 7, "the \"pair\""⟩

theorem start_of_quoted_pair :
    ∃ s s' rest, quotedPair.validate = .ok () ∧
      (Pool.initial quotedPair ⟨[], [], [], []⟩ [[.start]]).runWhile Pool.OneAtATime (stepsOf 0 1) = some s ∧
      s.NamedStart quotedPair 0 rest ∧ Pool.Grants 0 rest s s' ∧
      s'.framesOf 0 = giveAnswer (.outcome (.ok ())) rest ∧ s'.live = 2 := by
  obtain ⟨s, a, s', rest, hv, hr, he, ht, hl, hret, hone⟩ : ∃ s a s' rest, quotedPair.validate = .ok () ∧
      (Pool.initial quotedPair ⟨[], [], [], []⟩ [[.start]]).runWhile Pool.OneAtATime (stepsOf 0 1) = some s ∧
      s.handles = [] ∧ s.framesOf 0 = .start .lock :: rest ∧
      s.runThrough (Pool.Granting 0 rest) (stepsOf 0 5 ++ stepsOf 1 2 ++ stepsOf 2 2) = some a ∧
      Pool.Returns 0 rest a s' ∧ s'.OneAtATime :=
    ⟨_, _, _, _, rfl, rfl, rfl, rfl, rfl, ⟨.run 0 none, rfl, by decide, by decide⟩, by decide⟩
  have start := ((ReachableWhile.initial (by decide)).runWhile hr).start_of_valid hv ht he
  have grants : Pool.Grants 0 rest s s' := ⟨a, Leads.refl.runThrough hl, hret, hone⟩
  obtain ⟨answer, live, -⟩ := start.succeeds (by decide) s' grants
  exact ⟨s, s', rest, hv, hr, start, grants, answer, live⟩

/-- Options whose name has a NUL. -/
def nulNamed : Options := ⟨3, 1, "a\x00b"⟩

/-- The text of two of the fields of such options. -/
def nulNamedMembers : Json.MemberTexts := [("max_threads", ['3']), ("thread_name", Json.writeString "a\x00b")]

/-- They are valid, and so they are read from the text. -/
theorem parse_nulNamed :
    Options.parse "\x7b\"max_threads\":3,\"thread_name\":\"a\\u0000b\"\x7d" = .ok nulNamed := by
  have becomes : Options.Draft.empty.Becomes nulNamedMembers ⟨some 3, none, some "a\x00b"⟩ := by
    refine ⟨.taken ?_, .kept, .taken ⟨_, Json.spells_escape _, rfl⟩, fun m hm unknown => ?_⟩
    · exact show ['3'] = Numeral.ofNat 3 by rw [Numeral.ofNat]; rfl
    · simp only [nulNamedMembers, List.mem_cons, List.not_mem_nil, or_false] at hm
      obtain rfl | rfl := hm <;> simp [Options.fieldNames] at unknown
  have text : String.ofList ([] ++ (Json.writeObject nulNamedMembers ++ [])) =
      "\x7b\"max_threads\":3,\"thread_name\":\"a\\u0000b\"\x7d" := by decide
  have read := Options.parse_becomes .nil (Json.isObject_writeObject nulNamedMembers) .nil becomes
  rw [text] at read
  exact read.trans rfl

/-- Options from a text, which are valid: the start of a new pool with them panics, and there is no worker. -/
theorem valid_options_panic :
    ∃ o s s' rest, Options.parse "\x7b\"max_threads\":3,\"thread_name\":\"a\\u0000b\"\x7d" = .ok o ∧
      o.validate = .ok () ∧
      (Pool.initial o ⟨[], [], [], []⟩ [[.start]]).runWhile Pool.OneAtATime (stepsOf 0 1) = some s ∧
      s.handles = [] ∧ s.framesOf 0 = .start .lock :: rest ∧ Pool.Serves 0 rest s s' ∧
      s'.framesOf 0 = giveAnswer .panicked rest ∧ s'.live = 0 := by
  obtain ⟨s, a, s', rest, hv, hr, he, ht, hl, hret, hone, answer, live⟩ : ∃ s a s' rest,
      nulNamed.validate = .ok () ∧
      (Pool.initial nulNamed ⟨[], [], [], []⟩ [[.start]]).runWhile Pool.OneAtATime (stepsOf 0 1) = some s ∧
      s.handles = [] ∧ s.framesOf 0 = .start .lock :: rest ∧
      s.runThrough (Pool.During 0 rest) (stepsOf 0 1) = some a ∧ Pool.Returns 0 rest a s' ∧ s'.OneAtATime ∧
      s'.framesOf 0 = giveAnswer .panicked rest ∧ s'.live = 0 :=
    ⟨_, _, _, _, rfl, rfl, rfl, rfl, rfl, ⟨.run 0 none, rfl, by decide, by decide⟩, by decide, rfl, rfl⟩
  exact ⟨nulNamed, s, s', rest, parse_nulNamed, hv, hr, he, ht, ⟨a, Leads.refl.runThrough hl, hret, hone⟩, answer, live⟩

end StatementPool
