import Tquic.Base.Run
import Tquic.Stream.RecvStore

/-!
# Reassembly of a stream

What `read` hands out is the stream itself, in order and without gaps, however
its frames were cut and in whatever order they came.
-/

namespace Tquic.RecvBuf

open SortedMap Exec

variable {S : List UInt8} {b : RecvBuf} {received : Set ℕ} {finSeen : Bool}

/-! ## One call of `read` -/

variable {e : ℕ × RangeBuf} {b₀ : RecvBuf}

theorem Stored.first_le (h : Stored S b) {e' : ℕ × RangeBuf} (hfirst : b.data.first? = some e)
    (he' : e' ∈ b.data) (hne : e'.1 ≠ e.1) : e.1 < e'.1 ∧ e.2.maxOff ≤ e'.2.off := by
  obtain ⟨he, hmin⟩ := first?_eq_some_iff.mp hfirst
  have hlt : e.1 < e'.1 := (hmin e' he').lt_of_ne' hne
  exact ⟨hlt, h.disjoint e he e' he' hlt⟩

section

variable (h : Holds S received finSeen b) (hfirst : b.data.first? = some e)
  (hoff : e.2.off = b.readOff)

include h hfirst hoff

theorem Holds.readAll :
    Holds S received finSeen
      { b with readOff := b.readOff + e.2.len, data := b.data.erase e.1 } := by
  have hb := h.stored
  have he := (first?_eq_some_iff.mp hfirst).1
  have hmax : e.2.maxOff = e.2.off + e.2.len := rfl
  have hkey := hb.keyed e he
  have hrecv := hb.recv e he
  have hold : ∀ e' ∈ b.data.erase e.1, e' ∈ b.data := fun e' he' => (mem_erase.mp he').1
  refine ⟨⟨fun e' he' => hb.keyed e' (hold e' he'), fun e' he' => hb.chunk e' (hold e' he'),
    fun e' he' e'' he'' => hb.disjoint e' (hold e' he') e'' (hold e'' he''), fun e' he' => ?_,
    fun e' he' => hb.recv e' (hold e' he'), ?_, hb.recv_le, hb.noError, hb.noShutdown,
    fun e' he' => hb.fin e' (hold e' he')⟩, fun x => ?_, h.finOff_eq⟩
  · have := (hb.first_le hfirst (hold e' he') (mem_erase.mp he').2).2
    dsimp only
    omega
  · dsimp only
    omega
  · rw [h.mem_iff]
    constructor
    · rintro (hx | ⟨e', he', hx⟩)
      · exact .inl (by dsimp only; omega)
      · by_cases heq : e'.1 = e.1
        · rw [eq_of_mem he' he heq] at hx
          exact .inl (by dsimp only; omega)
        · exact .inr ⟨e', mem_erase.mpr ⟨he', heq⟩, hx⟩
    · rintro (hx | ⟨e', he', hx⟩)
      · dsimp only at hx
        by_cases hlt : x < b.readOff
        · exact .inl hlt
        · exact .inr ⟨e, he, by omega, by omega⟩
      · exact .inr ⟨e', hold e' he', hx⟩

theorem Holds.readPart
    {n : ℕ} (hn : n < e.2.len) {buf : RangeBuf} (hbuf : buf.Carries S)
    (hbufOff : buf.off = e.2.off + n) (hbufMax : buf.maxOff = e.2.maxOff) :
    Holds S received finSeen
      { b with readOff := b.readOff + n, data := b.data.insert e.1 buf } := by
  have hb := h.stored
  have he := (first?_eq_some_iff.mp hfirst).1
  have hmax : e.2.maxOff = e.2.off + e.2.len := rfl
  have hmax' : buf.maxOff = buf.off + buf.len := rfl
  have hkey := hb.keyed e he
  have hrecv := hb.recv e he
  have hle := (hb.chunk e he).le
  have hold : ∀ {e'}, e' ∈ b.data.insert e.1 buf → e' = (e.1, buf) ∨ e' ∈ b.data ∧
      e.1 < e'.1 ∧ e.2.maxOff ≤ e'.2.off := by
    intro e' he'
    exact (mem_insert.mp he').imp_right fun ⟨he', hne⟩ => ⟨he', hb.first_le hfirst he' hne⟩
  refine ⟨⟨fun e' he' => ?_, fun e' he' => ?_, fun e' he' e'' he'' hlt => ?_, fun e' he' => ?_,
    fun e' he' => ?_, ?_, hb.recv_le, hb.noError, hb.noShutdown, fun e' he' hzero => ?_⟩,
    fun x => ?_, h.finOff_eq⟩
  · rcases hold he' with rfl | ⟨he', -⟩
    · dsimp only
      omega
    · exact hb.keyed e' he'
  · rcases hold he' with rfl | ⟨he', -⟩
    · exact ⟨hbuf, by dsimp only; omega, fun hzero => by dsimp only at hzero; omega⟩
    · exact hb.chunk e' he'
  · rcases hold he' with rfl | ⟨he', hlt', -⟩ <;> rcases hold he'' with rfl | ⟨he'', -, hle'⟩
    · exact absurd hlt (lt_irrefl _)
    · dsimp only
      omega
    · omega
    · exact hb.disjoint e' he' e'' he'' hlt
  · rcases hold he' with rfl | ⟨he', -, hle'⟩
    · dsimp only
      omega
    · dsimp only
      omega
  · rcases hold he' with rfl | ⟨he', -⟩
    · exact hrecv
    · exact hb.recv e' he'
  · dsimp only
    omega
  · rcases hold he' with rfl | ⟨he', -⟩
    · dsimp only at hzero
      omega
    · exact hb.fin e' he' hzero
  · rw [h.mem_iff]
    constructor
    · rintro (hx | ⟨e', he', hx⟩)
      · exact .inl (by dsimp only; omega)
      · by_cases heq : e'.1 = e.1
        · rw [eq_of_mem he' he heq] at hx
          by_cases hlt : x < b.readOff + n
          · exact .inl hlt
          · exact .inr ⟨(e.1, buf), mem_insert.mpr (.inl rfl), by dsimp only; omega,
              by dsimp only; omega⟩
        · exact .inr ⟨e', mem_insert.mpr (.inr ⟨he', heq⟩), hx⟩
    · rintro (hx | ⟨e', he', hx⟩)
      · dsimp only at hx
        by_cases hlt : x < b.readOff
        · exact .inl hlt
        · exact .inr ⟨e, he, by omega, by omega⟩
      · rcases hold he' with rfl | ⟨he', -⟩
        · dsimp only at hx
          exact .inr ⟨e, he, by omega, by omega⟩
        · exact .inr ⟨e', he', hx⟩

end

theorem ready_iff : b.ready = true ↔ ∃ e, b.data.first? = some e ∧ e.2.off = b.readOff := by
  rw [ready]
  cases b.data.first? with
  | none => simp
  | some => simp

theorem Holds.ready_of_mem (h : Holds S received finSeen b) (hmem : b.readOff ∈ received) :
    b.ready = true := by
  have hb := h.stored
  rcases (h.mem_iff _).mp hmem with hlt | ⟨e, he, hle, hlt⟩
  · omega
  have hoff := hb.unread e he
  obtain ⟨e', he', hfirst⟩ := exists_first_of_mem he
  refine ready_iff.mpr ⟨e', hfirst, ?_⟩
  by_cases hkey : e.1 = e'.1
  · rw [← eq_of_mem he he' hkey]
    omega
  · -- a chunk before the one that has the byte would be empty, and so at the end
    obtain ⟨hlt', hle'⟩ := hb.first_le hfirst he hkey
    have hoff' := hb.unread e' he'
    have hmax' : e'.2.maxOff = e'.2.off + e'.2.len := rfl
    omega

theorem Holds.ready_of_end (h : Holds S received finSeen b) (hend : b.readOff = S.length)
    (he : e ∈ b.data) : b.ready = true := by
  obtain ⟨e', he', hfirst⟩ := exists_first_of_mem he
  have hoff := h.stored.unread e' he'
  have hle := (h.stored.chunk e' he').le
  have hmax : e'.2.maxOff = e'.2.off + e'.2.len := rfl
  exact ready_iff.mpr ⟨e', hfirst, by omega⟩

/-- The state of the loop of `read`, which started from `b₀` with room for `cap₀`
bytes. -/
structure Reading (S : List UInt8) (received : Set ℕ) (finSeen : Bool) (b₀ : RecvBuf) (cap₀ : ℕ)
    (s : RecvBuf × List UInt8 × ℕ) : Prop where
  holds : Holds S received finSeen s.1
  out_eq : S.take b₀.readOff ++ s.2.1 = S.take s.1.readOff
  room : s.2.1.length + s.2.2 = cap₀
  flowControl_eq : s.1.flowControl = b₀.flowControl
  full : s.2.2 = 0 → 0 < cap₀ → ∀ e ∈ s.1.data, s.1.readOff < e.1

/-- What `read` has done when its loop ends: an output with room left means that
nothing more was ready. -/
structure ReadOut (S : List UInt8) (received : Set ℕ) (finSeen : Bool) (b₀ : RecvBuf) (cap₀ : ℕ)
    (r : RecvBuf × List UInt8) : Prop where
  holds : Holds S received finSeen r.1
  out_eq : S.take b₀.readOff ++ r.2 = S.take r.1.readOff
  room : r.2.length ≤ cap₀
  flowControl_eq : r.1.flowControl = b₀.flowControl
  drained : 0 < cap₀ → r.1.ready = false ∨ ∀ e ∈ r.1.data, r.1.readOff < e.1

theorem Holds.take_append (h : Holds S received finSeen b) (he : e ∈ b.data)
    (hoff : e.2.off = b.readOff) {n : ℕ} (hn : n ≤ e.2.len) :
    S.take b.readOff ++ e.2.data.take n = S.take (b.readOff + n) := by
  have hcarries : e.2.data <+: S.drop b.readOff := hoff ▸ (h.stored.chunk e he).carries
  obtain ⟨rest, hrest⟩ := hcarries
  rw [List.take_add, ← hrest, List.take_append_of_le_length hn]

theorem readNext_returns {cap₀ : ℕ} {s : RecvBuf × List UInt8 × ℕ}
    (h : Reading S received finSeen b₀ cap₀ s) : (readNext s).Returns
      (Next.Holds
        (fun s' => Reading S received finSeen b₀ cap₀ s' ∧ s'.1.data.length < s.1.data.length)
        (ReadOut S received finSeen b₀ cap₀)) := by
  obtain ⟨b, out, cap⟩ := s
  obtain ⟨hb, hout, hroom, hflow, hfull⟩ := h
  dsimp only at hb hout hroom hflow hfull
  simp only [readNext]
  split_ifs with hgo
  · obtain ⟨e, hfirst, hoff⟩ := ready_iff.mp hgo.2
    have he := (first?_eq_some_iff.mp hfirst).1
    have hkey := hb.stored.keyed e he
    have hmax : e.2.maxOff = e.2.off + e.2.len := rfl
    rw [hfirst]
    dsimp only
    split_ifs with hpart
    · apply (RangeBuf.advance_returns (hb.stored.chunk e he).carries hpart.le).bind
      rintro buf ⟨hcarries, hbufOff, hbufMax, -⟩
      refine .intro ⟨hb.readPart hfirst hoff hpart hcarries hbufOff hbufMax, ?_, ?_, hflow,
        fun _ => .inr fun e' he' => ?_⟩
      · rw [← List.append_assoc, hout, hb.take_append he hoff hpart.le]
      · rw [List.length_append, List.length_take]
        omega
      · rcases mem_insert.mp he' with rfl | ⟨he', hne⟩
        · dsimp only
          omega
        · have := (hb.stored.first_le hfirst he' hne).1
          dsimp only
          omega
    · have hall : min e.2.len cap = e.2.len := by omega
      rw [hall]
      refine .intro ⟨⟨hb.readAll hfirst hoff, ?_, ?_, hflow, fun _ _ e' he' => ?_⟩,
        length_erase_lt he⟩
      · rw [← List.append_assoc, hout, hb.take_append he hoff le_rfl]
      · rw [List.length_append, List.length_take]
        have : e.2.data.length = e.2.len := rfl
        dsimp only
        omega
      · obtain ⟨he', hne⟩ := mem_erase.mp he'
        have := (hb.stored.first_le hfirst he' hne).1
        dsimp only
        omega
  · refine .intro ⟨hb, hout, by dsimp only; omega, hflow, fun hpos => ?_⟩
    by_cases hcap : cap = 0
    · exact .inr (hfull hcap hpos)
    · refine .inl (Bool.not_eq_true _ ▸ fun hready => hgo ⟨by omega, hready⟩)

def Finished (b : RecvBuf) : Prop := b.isFin = true ∧ ∀ e, e ∉ b.data

theorem not_ready_of_empty (h : ∀ e, e ∉ b.data) : b.ready = false := by
  rw [ready, first?_eq_none_iff.mpr h]

theorem read_of_not_ready (h : b.ready = false) (cap : ℕ) : b.read cap = .ok (b, .error .done) := by
  simp [read, h]

theorem read_returns (h : Holds S received finSeen b) (cap : ℕ) : (b.read cap).Returns fun r =>
    Holds S received finSeen r.1 ∧ r.1.maxData = b.maxData ∧
      (r = (b, .error .done) ∧ b.readOff ∉ received ∨
        ∃ out fin, r.2 = .ok (out, fin) ∧ S.take b.readOff ++ out = S.take r.1.readOff ∧
          out.length ≤ cap ∧ (fin = true ↔ finSeen = true ∧ r.1.readOff = S.length) ∧
          (0 < cap → fin = true → r.1.Finished)) := by
  by_cases hready : b.ready = true
  · have hstart : Reading S received finSeen b cap (b, [], cap) :=
      ⟨h, by simp, by simp, rfl, fun h₁ h₂ => by dsimp only at h₁; omega⟩
    have hread := loop_returns (Reading S received finSeen b cap) (fun s => s.1.data.length)
      (fun _ hs => readNext_returns hs) (b.data.length + 1) _ hstart (Nat.lt_succ_self _)
    simp only [read, hready, h.stored.noError]
    apply hread.bind
    rintro ⟨b', out⟩ ⟨hb', hout, hroom, hflow, hdrained⟩
    dsimp only at hb' hout hroom hflow hdrained
    have hb'' : Holds S received finSeen
        { b' with flowControl := b'.flowControl.increaseReadOff out.length } :=
      ⟨⟨hb'.stored.keyed, hb'.stored.chunk, hb'.stored.disjoint, hb'.stored.unread,
        hb'.stored.recv, hb'.stored.read_le, hb'.stored.recv_le, hb'.stored.noError,
        hb'.stored.noShutdown, hb'.stored.fin⟩, hb'.mem_iff, hb'.finOff_eq⟩
    refine .intro ⟨hb'', ?_, .inr ⟨out, _, rfl, hout, hroom, hb''.isFin_iff, ?_⟩⟩
    · simp [maxData, hflow, FlowControl.increaseReadOff]
    · intro hcap hfin
      refine ⟨hfin, fun e he => ?_⟩
      have hend : b'.readOff = S.length := (hb''.isFin_iff.mp hfin).2
      rcases hdrained hcap with hnot | hlt
      · exact absurd (hb'.ready_of_end hend he) (by simp [hnot])
      · have hkey := hb'.stored.keyed e he
        have hle := (hb'.stored.chunk e he).le
        have := hlt e he
        omega
  · rw [Bool.not_eq_true] at hready
    rw [read_of_not_ready hready]
    refine .intro ⟨h, rfl, .inl ⟨rfl, fun hmem => ?_⟩⟩
    exact absurd (h.ready_of_mem hmem) (by simp [hready])

/-! ## Runs -/

inductive Call where
  | write (off : ℕ) (data : List UInt8) (fin : Bool)
  | read (cap : ℕ)

inductive Outcome where
  | wrote (r : Result Unit)
  | got (cap : ℕ) (r : Result (List UInt8 × Bool))

def step (b : RecvBuf) : Call → Exec (RecvBuf × Outcome)
  | .write off data fin => do
      let (b, r) ← b.write off data fin
      return (b, .wrote r)
  | .read cap => do
      let (b, r) ← b.read cap
      return (b, .got cap r)

/-- The calls that a peer with the stream `S` and any application can make. -/
def Call.Legal (S : List UInt8) (maxData : ℕ) : Call → Prop
  | .write off data fin => Frame S maxData off data fin
  | .read _ => True

def framesReceived : List Call → Set ℕ
  | [] => ∅
  | .write off data _ :: calls => Set.Ico off (off + data.length) ∪ framesReceived calls
  | .read _ :: calls => framesReceived calls

def framesFin : List Call → Bool
  | [] => false
  | .write _ _ fin :: calls => fin || framesFin calls
  | .read _ :: calls => framesFin calls

def output : List Outcome → List UInt8
  | [] => []
  | .got _ (.ok (out, _)) :: outcomes => out ++ output outcomes
  | _ :: outcomes => output outcomes

def finReported : List Outcome → Bool
  | [] => false
  | .got cap (.ok (_, fin)) :: outcomes => (decide (0 < cap) && fin) || finReported outcomes
  | _ :: outcomes => finReported outcomes

theorem Holds.new (maxData maxWindow : ℕ) : Holds S ∅ false (RecvBuf.new maxData maxWindow) := by
  have hnone : ∀ e, e ∉ (RecvBuf.new maxData maxWindow).data := not_mem_empty
  refine ⟨⟨?_, ?_, ?_, ?_, ?_, le_rfl, Nat.zero_le _, rfl, rfl, ?_⟩, fun x => ?_, rfl⟩
  iterate 6 exact fun e he => absurd he (hnone e)
  simp [mem_stored, RecvBuf.new]

/-- After some calls: the invariant, the bytes handed out since `b₀`, and that nothing is left once
the end was reported. -/
structure Reached (S : List UInt8) (received : Set ℕ) (finSeen : Bool) (b₀ : RecvBuf)
    (out : List UInt8) (reported : Bool) (b : RecvBuf) : Prop where
  holds : Holds S received finSeen b
  out_eq : S.take b₀.readOff ++ out = S.take b.readOff
  maxData_eq : b.maxData = b₀.maxData
  finished : reported = true → b.Finished

variable {out : List UInt8} {reported : Bool}

theorem step_returns
    (h : Reached S received finSeen b₀ out reported b) {c : Call} (hc : c.Legal S b₀.maxData) :
    (b.step c).Returns fun r =>
      Reached S (received ∪ framesReceived [c]) (finSeen || framesFin [c]) b₀
        (out ++ output [r.2]) (reported || finReported [r.2]) r.1 := by
  cases c with
  | write off data fin =>
    have hframe : Frame S b.maxData off data fin := h.maxData_eq ▸ hc
    by_cases hfin : b.isFin = true
    · have heq := h.holds.write_of_isFin hframe hfin
      obtain ⟨-, -, -, hb⟩ := (write_returns h.holds hframe).of_eq heq
      simp only [step, heq, ok_bind, pure_def, returns_ok]
      refine ⟨?_, ?_, h.maxData_eq, ?_⟩
      · simpa [framesReceived, framesFin] using hb
      · simpa [output] using h.out_eq
      · simpa [finReported] using h.finished
    · apply (write_returns h.holds hframe).bind
      rintro ⟨b', r⟩ ⟨-, hread, hflow, hb⟩
      dsimp only at hread hflow hb
      refine .intro ⟨?_, ?_, ?_, ?_⟩
      · simpa [framesReceived, framesFin] using hb
      · simpa [output, hread] using h.out_eq
      · rw [← h.maxData_eq, maxData, maxData, hflow]
      · intro hreported
        have hrep : reported = true := by simpa [finReported] using hreported
        exact absurd (h.finished hrep).1 hfin
  | read cap =>
    obtain ⟨⟨b', r⟩, hread, hb, hmax, hcase⟩ := read_returns h.holds cap
    simp only [step, hread, ok_bind, pure_def, returns_ok]
    have hb' : Holds S (received ∪ framesReceived [.read cap])
        (finSeen || framesFin [.read cap]) b' := by
      simpa [framesReceived, framesFin] using hb
    rcases hcase with ⟨heq, -⟩ | ⟨bytes, fin, rfl, hout, -, -, hfin⟩
    · cases heq
      refine ⟨hb', ?_, h.maxData_eq, ?_⟩
      · simpa [output] using h.out_eq
      · simpa [finReported] using h.finished
    · refine ⟨hb', ?_, hmax.trans h.maxData_eq, ?_⟩
      · simp only [output, List.append_nil]
        rw [← List.append_assoc, h.out_eq, hout]
      · intro hreported
        have hrep : reported = true ∨ (0 < cap ∧ fin = true) := by
          simpa [finReported] using hreported
        rcases hrep with hrep | ⟨hcap, hrep⟩
        · -- a finished buffer has nothing ready
          have hdone := read_of_not_ready (not_ready_of_empty (h.finished hrep).2) cap
          rw [hread] at hdone
          cases hdone
        · exact hfin hcap hrep

theorem framesReceived_cons (c : Call) (calls : List Call) :
    framesReceived (c :: calls) = framesReceived [c] ∪ framesReceived calls := by
  cases c <;> simp [framesReceived]

theorem framesFin_cons (c : Call) (calls : List Call) :
    framesFin (c :: calls) = (framesFin [c] || framesFin calls) := by
  cases c <;> simp [framesFin]

theorem output_cons (o : Outcome) (outcomes : List Outcome) :
    output (o :: outcomes) = output [o] ++ output outcomes := by
  rcases o with r | ⟨cap, _ | ⟨out, fin⟩⟩ <;> simp [output]

theorem finReported_cons (o : Outcome) (outcomes : List Outcome) :
    finReported (o :: outcomes) = (finReported [o] || finReported outcomes) := by
  rcases o with r | ⟨cap, _ | ⟨out, fin⟩⟩ <;> simp [finReported]

theorem run_returns {calls : List Call} (hlegal : ∀ c ∈ calls, c.Legal S b₀.maxData)
    (h : Reached S received finSeen b₀ out reported b) :
    (run step b calls).Returns fun r =>
      Reached S (received ∪ framesReceived calls) (finSeen || framesFin calls) b₀
        (out ++ output r.2) (reported || finReported r.2) r.1 := by
  induction calls generalizing b received finSeen out reported with
  | nil =>
    refine .intro ?_
    simpa [framesReceived, framesFin, output, finReported] using h
  | cons c calls ih =>
    apply (step_returns h (hlegal c (by simp))).bind
    rintro ⟨b₁, o⟩ h₁
    apply (ih (fun c' hc' => hlegal c' (.tail _ hc')) h₁).bind
    rintro ⟨b₂, outcomes⟩ h₂
    refine .intro ?_
    rw [framesReceived_cons, framesFin_cons, output_cons, finReported_cons]
    simpa only [Set.union_assoc, Bool.or_assoc, List.append_assoc] using h₂

/-- Every run of `write` and `read` on a new buffer, for frames of a stream `S` within the limit,
returns. What was handed out is a first part of `S`, and a read is refused only for a byte that has
not arrived or after one that had room reported the end. -/
theorem run_reassembles (S : List UInt8) (maxData maxWindow : ℕ) (calls : List Call)
    (hlegal : ∀ c ∈ calls, c.Legal S maxData) :
    ∃ b outcomes, run step (RecvBuf.new maxData maxWindow) calls = .ok (b, outcomes) ∧
      (∀ e ∈ b.data, e.1 = e.2.maxOff ∧
        (e.2.data = [] → framesFin calls = true ∧ e.1 = S.length)) ∧
      (∀ e ∈ b.data, ∀ e' ∈ b.data, e ≠ e' →
        Disjoint (Set.Ico e.2.off e.2.maxOff) (Set.Ico e'.2.off e'.2.maxOff)) ∧
      b.readOff ≤ S.length ∧ output outcomes = S.take b.readOff ∧
      ∀ cap, ∃ b' r, b.read cap = .ok (b', r) ∧
        (r = .error .done ∧ b.readOff ∉ framesReceived calls ∨ ∃ out fin, r = .ok (out, fin) ∧
          (fin = true ↔ framesFin calls = true ∧ b'.readOff = S.length)) ∧
        (finReported outcomes = true → r = .error .done) := by
  have hstart : Reached S ∅ false (new maxData maxWindow) [] false
      (new maxData maxWindow) := ⟨Holds.new maxData maxWindow, by simp, rfl, by simp⟩
  obtain ⟨⟨b, outcomes⟩, hrun, hb, hout, -, hfinished⟩ := run_returns hlegal hstart
  simp only [Set.empty_union, List.nil_append] at hb hout hfinished
  have hstored := hb.stored
  refine ⟨b, outcomes, hrun, ?_, ?_, hstored.read_le.trans hstored.recv_le,
    by simpa [new] using hout, ?_⟩
  · intro e he
    refine ⟨hstored.keyed e he, fun hnil => ?_⟩
    have hzero : e.2.len = 0 := by rw [RangeBuf.len, hnil, List.length_nil]
    have hknown : framesFin calls = true := by
      have := hstored.fin e he hzero
      rw [hb.finOff_eq] at this
      by_contra hnot
      simp [hnot] at this
    have hend := (hstored.chunk e he).final hzero
    have hmax : e.2.maxOff = e.2.off + e.2.len := rfl
    exact ⟨hknown, by rw [hstored.keyed e he]; omega⟩
  · intro e he e' he' hne
    rw [Set.disjoint_left]
    rintro x ⟨h₁, h₂⟩ ⟨h₃, h₄⟩
    rcases lt_trichotomy e.1 e'.1 with hlt | heq | hgt
    · have := hstored.disjoint e he e' he' hlt
      omega
    · exact hne (eq_of_mem he he' heq)
    · have := hstored.disjoint e' he' e he hgt
      omega
  · intro cap
    obtain ⟨⟨b', r⟩, hread, -, -, hcase⟩ := read_returns hb cap
    refine ⟨b', r, hread, ?_, fun hreported => ?_⟩
    · rcases hcase with ⟨heq, hmem⟩ | ⟨out, fin, heq, -, -, hfin, -⟩
      · exact .inl ⟨(Prod.mk.inj heq).2, hmem⟩
      · exact .inr ⟨out, fin, heq, hfin⟩
    · have hdone := read_of_not_ready (not_ready_of_empty (hfinished hreported).2) cap
      rw [hread] at hdone
      cases hdone
      rfl

theorem run_reassembles_overlapping : ∃ b outcomes,
    run step (RecvBuf.new 10 10) [.write 1 [2, 3] true, .write 0 [1, 2] false, .read 8] =
      .ok (b, outcomes) ∧ b.readOff ≤ 3 ∧ output outcomes = [1, 2, 3].take b.readOff := by
  obtain ⟨b, outcomes, hrun, -, -, hle, hout, -⟩ := run_reassembles [1, 2, 3] 10 10
    [.write 1 [2, 3] true, .write 0 [1, 2] false, .read 8] (by
      simp only [List.mem_cons, List.not_mem_nil, or_false, forall_eq_or_imp, forall_eq]
      exact ⟨⟨by decide, by decide, by decide, by decide⟩,
        ⟨by decide, by decide, by decide, by decide⟩, trivial⟩)
  exact ⟨b, outcomes, hrun, hle, hout⟩

/-- The end of an empty stream is stored as an empty chunk. -/
theorem write_fin_stores_empty_chunk : (Call.write 0 [] true).Legal [] 10 ∧
    ∃ b, run step (RecvBuf.new 10 10) [.write 0 [] true] = .ok (b, [.wrote (.ok ())]) ∧
      (0, ⟨[], 0, true⟩) ∈ b.data :=
  ⟨⟨by decide, by decide, by decide, by decide⟩, _, rfl, by decide⟩

end Tquic.RecvBuf
