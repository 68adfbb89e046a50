import Tquic.Base.Run
import Tquic.Connection.Path

/-!
# Validation of a path

A path among the events of its validation: challenges sent, responses with any data, and timeouts.
The address is proved once a response has carried the data of a challenge in flight.
-/

namespace Tquic

open List

namespace Path

structure Unprobed (p : Path) : Prop where
  state : p.state = .unknown
  unverified : p.verifiedPeerAddress = false
  sentChals : p.sentChals = []

theorem unprobed_new (localAddr remoteAddr : SocketAddr) (now : ℤ) :
    (Path.new localAddr remoteAddr false now).Unprobed := ⟨rfl, rfl, rfl⟩

def Outstanding (p : Path) (data : UInt64) : Prop := ∃ c ∈ p.sentChals, c.data = data

instance (p : Path) (data : UInt64) : Decidable (p.Outstanding data) :=
  inferInstanceAs (Decidable (∃ c ∈ p.sentChals, c.data = data))

def Trusted (p : Path) : Prop :=
  p.verifiedPeerAddress = true ∨ p.state = .validatingMtu ∨ p.state = .validated

/-! ## What the events do to the challenges in flight and to the verdict -/

variable {p : Path}

theorem sentChals_promoteTo (p : Path) (state : PathState) :
    (p.promoteTo state).sentChals = p.sentChals := by
  rw [promoteTo]
  split_ifs <;> rfl

variable {data : UInt64}

variable {data' : UInt64}

theorem Outstanding.of_respReceived {multipath : Bool}
    (h : (p.onPathRespReceived data multipath).1.Outstanding data') : p.Outstanding data' := by
  rw [onPathRespReceived] at h
  dsimp only at h
  split_ifs at h
  · exact h
  · obtain ⟨c, hc, -⟩ := h
    cases hc
  · obtain ⟨c, hc, hdata⟩ := h
    rw [sentChals_promoteTo] at hc
    exact ⟨c, mem_of_mem_filter hc, hdata⟩

variable {size : ℕ} {sentTime : ℤ}

theorem Outstanding.of_chalSent
    (h : (p.onPathChalSent data size sentTime).Outstanding data') :
    p.Outstanding data' ∨ data' = data := by
  obtain ⟨c, hc, rfl⟩ := h
  rcases mem_append.mp hc with hc | hc
  · rw [sentChals_promoteTo] at hc
    exact .inl ⟨c, hc, rfl⟩
  · rw [mem_singleton.mp hc]
    exact .inr rfl

theorem expireChals_spec (now : ℤ) (chals : List SentChallenge) (p : Path) :
    (expireChals now chals p).sentChals ⊆ chals ∧
      ((expireChals now chals p).state = p.state ∨ (expireChals now chals p).state = .failed) ∧
      (expireChals now chals p).verifiedPeerAddress = p.verifiedPeerAddress := by
  induction chals generalizing p with
  | nil => exact ⟨List.Subset.refl _, .inl rfl, rfl⟩
  | cons c rest ih =>
    rw [expireChals]
    dsimp only
    split_ifs
    · exact ⟨List.Subset.refl _, .inl rfl, rfl⟩
    · obtain ⟨hchals, hstate, hverified⟩ :=
        ih { p with sentChals := rest, lostChal := p.lostChal + 1 }.initiatePathChal
      exact ⟨List.Subset.trans hchals (subset_cons_self c rest), hstate, hverified⟩
    · exact ⟨nil_subset _, .inr rfl, rfl⟩

variable {now : ℤ}

theorem Outstanding.of_chalTimeout (h : (p.onPathChalTimeout now).Outstanding data) :
    p.Outstanding data := by
  rw [onPathChalTimeout] at h
  split_ifs at h
  · exact h
  · obtain ⟨c, hc, hdata⟩ := h
    exact ⟨c, (expireChals_spec now p.sentChals p).1 hc, hdata⟩

theorem Trusted.of_chalTimeout (h : (p.onPathChalTimeout now).Trusted) : p.Trusted := by
  rw [onPathChalTimeout] at h
  split_ifs at h
  · exact h
  · obtain ⟨-, hstate, hverified⟩ := expireChals_spec now p.sentChals p
    rcases h with h | h
    · exact .inl (hverified ▸ h)
    · rcases hstate with hstate | hstate
      · exact .inr (hstate ▸ h)
      · rw [hstate] at h
        rcases h with h | h <;> cases h

theorem Trusted.of_chalSent (h : (p.onPathChalSent data size sentTime).Trusted) : p.Trusted := by
  have hsame : ((p.onPathChalSent data size sentTime).state = p.state ∨
      (p.onPathChalSent data size sentTime).state = .validating) ∧
      (p.onPathChalSent data size sentTime).verifiedPeerAddress = p.verifiedPeerAddress := by
    rw [onPathChalSent, promoteTo]
    split_ifs
    · exact ⟨.inr rfl, rfl⟩
    · exact ⟨.inl rfl, rfl⟩
  obtain ⟨hstate, hverified⟩ := hsame
  rcases h with h | h
  · exact .inl (hverified ▸ h)
  · rcases hstate with hstate | hstate
    · exact .inr (hstate ▸ h)
    · rw [hstate] at h
      rcases h with h | h <;> cases h

end Path

/-! ## Runs -/

/-- A path with the data of the challenges sent on it and of the responses that answered a challenge
in flight. -/
structure Probing where
  path : Path
  sent : List UInt64
  answered : List UInt64

namespace Probing

inductive Op where
  | chalSent (data : UInt64) (pktSize : ℕ) (sentTime : ℤ)
  | respReceived (data : UInt64) (multipath : Bool)
  | chalTimeout (now : ℤ)

def start (path : Path) : Probing := ⟨path, [], []⟩

def step (w : Probing) : Op → Exec (Probing × Unit)
  | .chalSent data pktSize sentTime =>
    .ok ({ w with
      path := w.path.onPathChalSent data pktSize sentTime
      sent := w.sent ++ [data] }, ())
  | .respReceived data multipath =>
    .ok ({ w with
      path := (w.path.onPathRespReceived data multipath).1
      answered := if w.path.Outstanding data then w.answered ++ [data] else w.answered }, ())
  | .chalTimeout now => .ok ({ w with path := w.path.onPathChalTimeout now }, ())

def AnswersFirst (w : Probing) : Op → Prop
  | .respReceived data _ => w.path.Outstanding data ∨ w.answered ≠ []
  | .chalSent .. => True
  | .chalTimeout _ => True

instance (w : Probing) (op : Op) : Decidable (w.AnswersFirst op) := by
  cases op <;> unfold AnswersFirst <;> infer_instance

/-- The invariant: what is in flight or was answered has been sent on the path. -/
structure Proved (w : Probing) : Prop where
  outstanding : ∀ data, w.path.Outstanding data → data ∈ w.sent
  answered : ∀ data ∈ w.answered, data ∈ w.sent
  trusted : w.path.Trusted → w.answered ≠ []

theorem proved_start {path : Path} (h : path.Unprobed) : (start path).Proved where
  outstanding data hout := by
    obtain ⟨c, hc, -⟩ := hout
    rw [start, h.sentChals] at hc
    cases hc
  answered data hdata := nomatch hdata
  trusted htrusted := by
    exfalso
    rcases htrusted with hv | hs | hs
    · exact absurd (h.unverified.symm.trans hv) Bool.false_ne_true
    · exact nomatch h.state.symm.trans hs
    · exact nomatch h.state.symm.trans hs

theorem Proved.step {w w' : Probing} {op : Op} (h : w.Proved) (hlegal : w.AnswersFirst op)
    (hstep : w.step op = .ok (w', ())) : w'.Proved := by
  cases op with
  | chalSent =>
    cases hstep
    refine ⟨?_, fun data' hdata' => mem_append_left _ (h.answered data' hdata'), ?_⟩
    · intro data' hout
      rcases Path.Outstanding.of_chalSent hout with hold | rfl
      · exact mem_append_left _ (h.outstanding data' hold)
      · exact mem_append_right _ (mem_singleton_self _)
    · intro htrusted
      exact h.trusted (Path.Trusted.of_chalSent htrusted)
  | respReceived data =>
    cases hstep
    refine ⟨fun data' hout => h.outstanding data' (Path.Outstanding.of_respReceived hout), ?_, ?_⟩
    · intro data' hdata'
      split_ifs at hdata' with hout
      · rcases mem_append.mp hdata' with hold | hnew
        · exact h.answered data' hold
        · rw [mem_singleton.mp hnew]
          exact h.outstanding data hout
      · exact h.answered data' hdata'
    -- whatever the path makes of the response, one has been answered by now
    · intro _
      split_ifs with hout
      · exact append_ne_nil_of_right_ne_nil _ (cons_ne_nil _ _)
      · exact hlegal.resolve_left hout
  | chalTimeout =>
    cases hstep
    refine ⟨fun data' hout => h.outstanding data' (Path.Outstanding.of_chalTimeout hout),
      h.answered, ?_⟩
    intro htrusted
    exact h.trusted (Path.Trusted.of_chalTimeout htrusted)

/-- A path is trusted only after a response that carried the data of a challenge which was
sent on it and in flight. -/
theorem trusted_path_answered {path : Path} (hpath : path.Unprobed) {w : Probing}
    (hreaches : Exec.Reaches step AnswersFirst (start path) w) (htrusted : w.path.Trusted) :
    ∃ data ∈ w.answered, data ∈ w.sent := by
  have hproved : w.Proved :=
    hreaches.invariant Proved (fun _ _ _ _ h hlegal hstep => h.step hlegal hstep)
      (proved_start hpath)
  obtain ⟨data, hdata⟩ := exists_mem_of_ne_nil _ (hproved.trusted htrusted)
  exact ⟨data, hdata, hproved.answered data hdata⟩

def probedPath : Path :=
  Path.new ⟨.v4 ⟨[127, 0, 0, 1], rfl⟩, 443⟩ ⟨.v4 ⟨[127, 0, 0, 2], rfl⟩, 5000⟩ false 0

def answeredProbe : Probing :=
  Exec.follow step AnswersFirst (start probedPath)
    [.chalSent 99 1200 0, .respReceived 99 false, .respReceived 7 false]

theorem trusted_path_answered_probedPath :
    answeredProbe.path.Trusted ∧ ∃ data ∈ answeredProbe.answered, data ∈ answeredProbe.sent := by
  have htrusted : answeredProbe.path.Trusted := .inl (by decide)
  exact ⟨htrusted,
    trusted_path_answered (Path.unprobed_new _ _ _) (Exec.reaches_follow _ _) htrusted⟩

/-- Any response makes the path trusted, whatever its data. -/
theorem guessed_response_trusted :
    ∃ w, Exec.Reaches step (fun _ _ ↦ True) (start probedPath) w ∧ w.path.Trusted ∧
      w.answered = [] := by
  refine ⟨_, Exec.reaches_follow (start probedPath) [.chalSent 99 1200 0, .respReceived 7 false],
    .inl ?_, ?_⟩
  · decide
  · decide

end Probing

end Tquic
