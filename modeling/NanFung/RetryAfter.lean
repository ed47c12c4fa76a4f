import NanFung.Throttle

/-!
# What a Retry-After header leads to

The block that a 429 response leaves is the later one of the block before it and the deadline of its
header. A header that is too long to be read as a number, or a date outside the range of `datetime`,
raises; a number of seconds that leads past the last instant is no deadline at all.
-/

namespace NanFung

open Table

variable {L : TextLibrary} {rows : List ThrottleRow} {host group header header' : String} {now : Time}

/-! ## Headers -/

/-- The header is a text of decimal digits that denotes `n`. -/
def Denotes (L : TextLibrary) (header : String) (n : Nat) : Prop :=
  ∃ digits, strip header.toList ≠ [] ∧ (strip header.toList).mapM L.decimal = some digits ∧
    n = digits.foldl (fun n d => 10 * n + d) 0

/-- `int` reads the header if it is decimal, and the date parser handles it if it is not. -/
structure Handled (L : TextLibrary) (header : String) : Prop where
  decimal : ∀ digits, (strip header.toList).mapM L.decimal = some digits → digits.length ≤ 4300
  date : (strip header.toList).mapM L.decimal = none →
    ∃ t, L.httpDate (String.ofList (strip header.toList)) = .ok t

theorem retryAfterDeadline_eq (L : TextLibrary) (header : String) (now : Time) :
    retryAfterDeadline L (some header) now =
      if strip header.toList = [] then .ok none
      else match (strip header.toList).mapM L.decimal with
        | some digits => decimalValue digits >>= fun n => .ok (now.add? (n * Time.second))
        | none => L.httpDate (String.ofList (strip header.toList)) >>= fun parsed =>
            .ok (parsed.map fun t => max t now) := by
  rw [retryAfterDeadline, Option.map_some]
  cases strip header.toList with
  | nil => rfl
  | cons c s => rfl

theorem decimalValue_ok {digits : List Nat} {n : Nat} : decimalValue digits = .ok n ↔
    digits.length ≤ 4300 ∧ n = digits.foldl (fun n d => 10 * n + d) 0 := by
  simp only [decimalValue, bind_ok, require_ok, Except.ok.injEq, exists_const]
  exact and_congr_right fun _ => eq_comm

/-- The header does not raise exactly if it is handled. -/
theorem retryAfterDeadline_ok_iff :
    (∃ d, retryAfterDeadline L (some header) now = .ok d) ↔ Handled L header := by
  rw [retryAfterDeadline_eq]
  cases hdigits : (strip header.toList).mapM L.decimal with
  | none =>
    have hne : strip header.toList ≠ [] := by
      intro hnil
      rw [hnil] at hdigits
      exact nomatch hdigits
    rw [if_neg hne]
    constructor
    · rintro ⟨d, hd⟩
      obtain ⟨t, ht, -⟩ := bind_ok.mp hd
      exact ⟨fun digits h => (nomatch hdigits.symm.trans h), fun _ => ⟨t, ht⟩⟩
    · intro h
      obtain ⟨t, ht⟩ := h.date hdigits
      exact ⟨_, bind_ok.mpr ⟨t, ht, rfl⟩⟩
  | some digits =>
    constructor
    · rintro ⟨d, hd⟩
      refine ⟨fun digits' h => ?_, fun h => (nomatch hdigits.symm.trans h)⟩
      obtain rfl : digits = digits' := Option.some.inj (hdigits.symm.trans h)
      split at hd
      · next hnil =>
        rw [hnil] at hdigits
        obtain rfl : [] = digits := Option.some.inj hdigits
        exact Nat.zero_le _
      · obtain ⟨n, hn, -⟩ := bind_ok.mp hd
        exact (decimalValue_ok.mp hn).1
    · intro h
      split
      · exact ⟨none, rfl⟩
      · exact ⟨_, bind_ok.mpr ⟨_, decimalValue_ok.mpr ⟨h.decimal digits hdigits, rfl⟩, rfl⟩⟩

/-- A deadline is never before the response. -/
theorem le_retryAfterDeadline {t : Time}
    (h : retryAfterDeadline L (some header) now = .ok (some t)) : now ≤ t := by
  rw [retryAfterDeadline_eq] at h
  split at h
  · exact nomatch h
  split at h
  · obtain ⟨n, -, hn⟩ := bind_ok.mp h
    exact Time.le_of_add?_eq_some (Except.ok.inj hn)
  · obtain ⟨parsed, -, hparsed⟩ := bind_ok.mp h
    obtain ⟨u, -, rfl⟩ := Option.map_eq_some_iff.mp (Except.ok.inj hparsed)
    exact le_max_right _ _

/-- The deadline of a number of seconds is the sum, if there is such an instant. -/
theorem retryAfterDeadline_denotes {n : Nat} {d : Option Time} (hn : Denotes L header n)
    (h : retryAfterDeadline L (some header) now = .ok d) : d = now.add? (n * Time.second) := by
  obtain ⟨digits, hne, hdigits, rfl⟩ := hn
  rw [retryAfterDeadline_eq, if_neg hne, hdigits] at h
  obtain ⟨n, hn, hd⟩ := bind_ok.mp h
  obtain ⟨-, rfl⟩ := decimalValue_ok.mp hn
  exact (Except.ok.inj hd).symm

/-! ## The stored block -/

/-- What a 429 response with a header returns and leaves. -/
def record429 (L : TextLibrary) (rows : List ThrottleRow) (host header : String) (now : Time) :
    Except ThrottleError (HostThrottleState × List ThrottleRow) :=
  recordHostResponse L host 429 (some header) now rows

/-- The block before a response, if it is not past. -/
def openBlock (group : String) (rows : List ThrottleRow) (now : Time) : Option Time :=
  (blockOf group rows).filter (now < ·)

theorem record429_ok_iff (hgroup : rateLimitGroup L host = .ok group) :
    (∃ r, record429 L rows host header now = .ok r) ↔ Handled L header := by
  rw [← @retryAfterDeadline_ok_iff L header now, record429, recordHostResponse]
  simp only [bind_ok, require_ok, if_pos, hgroup, Except.ok.injEq]
  constructor
  · rintro ⟨r, -, -, key, rfl, d, hd, -⟩
    cases hdeadline : retryAfterDeadline L (some header) now with
    | error e =>
      rw [hdeadline] at hd
      exact nomatch hd
    | ok d => exact ⟨d, rfl⟩
  · rintro ⟨d, hd⟩
    exact ⟨_, (), by decide, group, rfl, d, by rw [hd]; rfl, rfl⟩

/-- The stored block is the later one of the block before and the deadline. -/
theorem record429_block (hgroup : rateLimitGroup L host = .ok group)
    {r : HostThrottleState × List ThrottleRow} (h : record429 L rows host header now = .ok r) :
    ∃ d, retryAfterDeadline L (some header) now = .ok d ∧
      blockOf group r.2 = latestTimestamp (openBlock group rows now) d := by
  obtain ⟨key, d, hkey, hd, hrows⟩ := recordHostResponse_ok h
  obtain rfl : key = group := Except.ok.inj (hkey.symm.trans hgroup)
  refine ⟨d, hd rfl, ?_⟩
  rw [blockOf, hrows, if_pos rfl]
  rfl

theorem now_le_block {d : Option Time} (hd : ∀ t ∈ d, now ≤ t) {b : Time}
    (hb : b ∈ latestTimestamp (openBlock group rows now) d) : now ≤ b := by
  have hopen : ∀ t ∈ openBlock group rows now, now ≤ t := by
    intro t ht
    exact (of_decide_eq_true (Option.filter_eq_some_iff.mp ht).2).le
  cases hblock : openBlock group rows now with
  | none =>
    rw [hblock] at hb
    exact hd b hb
  | some u =>
    have hu := hopen u hblock
    rw [hblock] at hb
    cases d with
    | none =>
      obtain rfl : u = b := Option.some.inj hb
      exact hu
    | some t =>
      obtain rfl : max u t = b := Option.some.inj hb
      exact hu.trans (le_max_left _ _)

/-- What 429 responses owe to two headers. -/
structure RetryAfterHolds (L : TextLibrary) (rows : List ThrottleRow) (host group : String)
    (now : Time) (header header' : String) : Prop where
  /-- Neither header raises. -/
  total : ∀ h ∈ [header, header'], ∃ r, record429 L rows host h now = .ok r
  /-- A block that is stored is not before the response. -/
  future : ∀ h ∈ [header, header'], ∀ r, record429 L rows host h now = .ok r →
    ∀ b ∈ blockOf group r.2, now ≤ b
  /-- A longer wait leaves a block that is at least as late. -/
  monotone : ∀ n m, Denotes L header n → Denotes L header' m → n ≤ m → ∀ r r',
    record429 L rows host header now = .ok r → record429 L rows host header' now = .ok r' →
      ∀ b ∈ blockOf group r.2, ∃ b' ∈ blockOf group r'.2, b ≤ b'

/-- If the longer wait leads past the last instant then the shorter one does as well, or a block that is
there already lasts as long. -/
def Representable (group : String) (rows : List ThrottleRow) (now : Time) (n m : Nat) : Prop :=
  now.add? (m * Time.second) = none → ∀ t, now.add? (n * Time.second) = some t →
    ∃ b ∈ openBlock group rows now, t ≤ b

theorem latest_mono {block d d' : Option Time} (h : ∀ t ∈ d, ∃ t' ∈ latestTimestamp block d', t ≤ t')
    {b : Time} (hb : b ∈ latestTimestamp block d) : ∃ b' ∈ latestTimestamp block d', b ≤ b' := by
  cases hblock : block with
  | none =>
    rw [hblock] at hb h
    exact h b hb
  | some u =>
    rw [hblock] at hb h
    obtain ⟨v, hv, huv⟩ := le_latestTimestamp (a := some u) (b := d') (t := u) (Or.inl rfl)
    cases d with
    | none =>
      obtain rfl : u = b := Option.some.inj hb
      exact ⟨v, hv, huv⟩
    | some t =>
      obtain rfl : max u t = b := Option.some.inj hb
      obtain ⟨t', ht', htt'⟩ := h t rfl
      obtain rfl : v = t' := Option.some.inj (hv.symm.trans ht')
      exact ⟨v, hv, max_le huv htt'⟩

theorem add?_mono {n m : Nat} {t u : Time} (h : n ≤ m) (ht : now.add? (n * Time.second) = some t)
    (hu : now.add? (m * Time.second) = some u) : t ≤ u := by
  unfold Time.add? at ht hu
  split at ht
  · split at hu
    · obtain rfl := Option.some.inj ht
      obtain rfl := Option.some.inj hu
      exact Subtype.mk_le_mk.mpr (Nat.add_le_add_left (Nat.mul_le_mul_right _ h) _)
    · exact nomatch hu
  · exact nomatch ht

theorem RetryAfterHolds.representable (hgroup : rateLimitGroup L host = .ok group)
    (h : RetryAfterHolds L rows host group now header header') {n m : Nat}
    (hn : Denotes L header n) (hm : Denotes L header' m) (hle : n ≤ m) :
    Representable group rows now n m := by
  intro hnone t ht
  obtain ⟨r, hr⟩ := h.total header List.mem_cons_self
  obtain ⟨r', hr'⟩ := h.total header' (List.mem_cons_of_mem _ List.mem_cons_self)
  obtain ⟨d, hd, hblock⟩ := record429_block hgroup hr
  obtain ⟨d', hd', hblock'⟩ := record429_block hgroup hr'
  rw [retryAfterDeadline_denotes hn hd, ht] at hblock
  rw [retryAfterDeadline_denotes hm hd', hnone] at hblock'
  obtain ⟨u, hu, htu⟩ := le_latestTimestamp (a := openBlock group rows now) (b := some t) (t := t)
    (Or.inr rfl)
  obtain ⟨b, hb, hub⟩ := h.monotone n m hn hm hle r r' hr hr' u (hblock ▸ hu)
  refine ⟨b, ?_, htu.trans hub⟩
  rw [hblock'] at hb
  cases hopen : openBlock group rows now with
  | none =>
    rw [hopen] at hb
    exact hb
  | some v =>
    rw [hopen] at hb
    exact hb

/-- The two responses do what they owe exactly if both headers are handled and the longer wait can be
represented where the shorter one counts. -/
theorem retryAfterHolds_iff (hgroup : rateLimitGroup L host = .ok group) :
    RetryAfterHolds L rows host group now header header' ↔
      Handled L header ∧ Handled L header' ∧ ∀ n m, Denotes L header n → Denotes L header' m →
        n ≤ m → Representable group rows now n m := by
  constructor
  · intro h
    refine ⟨?_, ?_, fun n m hn hm hle => h.representable hgroup hn hm hle⟩
    · exact (record429_ok_iff hgroup).mp (h.total header List.mem_cons_self)
    · exact (record429_ok_iff hgroup).mp (h.total header' (List.mem_cons_of_mem _ List.mem_cons_self))
  · rintro ⟨hheader, hheader', hrepresentable⟩
    refine ⟨?_, ?_, ?_⟩
    · intro h hmem
      apply (record429_ok_iff hgroup).mpr
      simp only [List.mem_cons, List.not_mem_nil, or_false] at hmem
      rcases hmem with rfl | rfl
      · exact hheader
      · exact hheader'
    · intro h hmem r hr b hb
      obtain ⟨d, hd, hblock⟩ := record429_block hgroup hr
      rw [hblock] at hb
      refine now_le_block ?_ hb
      intro t ht
      exact le_retryAfterDeadline (ht ▸ hd)
    · intro n m hn hm hle r r' hr hr' b hb
      obtain ⟨d, hd, hblock⟩ := record429_block hgroup hr
      obtain ⟨d', hd', hblock'⟩ := record429_block hgroup hr'
      rw [hblock] at hb
      rw [hblock']
      refine latest_mono ?_ hb
      intro t ht
      rw [retryAfterDeadline_denotes hn hd] at ht
      rw [retryAfterDeadline_denotes hm hd']
      cases hlong : now.add? (m * Time.second) with
      | none =>
        -- the sum overflows: only the block before the response is left
        obtain ⟨u, hu, htu⟩ := hrepresentable n m hn hm hle hlong t ht
        obtain ⟨v, hv, huv⟩ := le_latestTimestamp (b := none) (Or.inl hu)
        exact ⟨v, hv, htu.trans huv⟩
      | some u =>
        obtain ⟨v, hv, huv⟩ := le_latestTimestamp (a := openBlock group rows now) (b := some u)
          (t := u) (Or.inr rfl)
        exact ⟨v, hv, (add?_mono hle ht hlong).trans huv⟩

namespace Sample

/-- The part of the library that texts of ASCII use; no text is a date. -/
def asciiLibrary : TextLibrary where
  lower s := s.map Char.toLower
  decimal c := if c.isDigit then some (c.toNat - '0'.toNat) else none
  httpDate _ := .ok none

theorem asciiHost : rateLimitGroup asciiLibrary "example.org" = .ok "example.org" := by
  have hplain : "example.org".toList.all
      (fun c => !isSpace c && !"/:@?#[\\]".toList.contains c) = true := by decide +kernel
  have hlower : asciiLibrary.lower (String.ofList
      ((strip "example.org".toList).reverse.dropWhile (· = '.')).reverse) = "example.org" := by
    decide +kernel
  simp only [rateLimitGroup, bind_ok, require_ok, hlower]
  refine ⟨(), ⟨by decide, fun c hc => ?_⟩, trivial⟩
  simpa using List.all_eq_true.mp hplain c hc

def epoch : Time := ⟨0, Nat.zero_le _⟩

theorem handled_of_digits {header : String} {digits : List Nat}
    (h : (strip header.toList).mapM asciiLibrary.decimal = some digits)
    (hlength : digits.length ≤ 4300) : Handled asciiLibrary header := by
  constructor
  · intro digits' h'
    obtain rfl : digits = digits' := Option.some.inj (h.symm.trans h')
    exact hlength
  · exact fun hnone => nomatch h.symm.trans hnone

theorem denotes_unique {header : String} {digits : List Nat} {n : Nat}
    (h : (strip header.toList).mapM asciiLibrary.decimal = some digits)
    (hn : Denotes asciiLibrary header n) : n = digits.foldl (fun n d => 10 * n + d) 0 := by
  obtain ⟨digits', -, h', rfl⟩ := hn
  rw [Option.some.inj (h.symm.trans h')]

theorem minute_digits : (strip "60".toList).mapM asciiLibrary.decimal = some [6, 0] := by
  decide +kernel

theorem minutes_digits : (strip " 120 ".toList).mapM asciiLibrary.decimal = some [1, 2, 0] := by
  decide +kernel

theorem century_digits : (strip "400000000000".toList).mapM asciiLibrary.decimal =
    some [4, 0, 0, 0, 0, 0, 0, 0, 0, 0, 0, 0] := by
  decide +kernel

theorem strip_nines (n : Nat) : strip (List.replicate n '9') = List.replicate n '9' := by
  have hdrop : (List.replicate n '9').dropWhile isSpace = List.replicate n '9' := by
    rw [List.dropWhile_replicate, if_neg (by decide)]
  rw [strip, hdrop, List.reverse_replicate, hdrop, List.reverse_replicate]

theorem nines_digits (n : Nat) : (strip (String.ofList (List.replicate n '9')).toList).mapM
    asciiLibrary.decimal = some (List.replicate n 9) := by
  rw [String.toList_ofList, strip_nines]
  induction n with
  | zero => rfl
  | succ n ih =>
    rw [List.replicate_succ, List.mapM_cons, ih]
    rfl

end Sample

open Sample in
/-- A minute and two minutes, from the first instant. -/
theorem retryAfterHolds_minutes :
    RetryAfterHolds asciiLibrary [] "example.org" "example.org" epoch "60" " 120 " := by
  refine (retryAfterHolds_iff asciiHost).mpr ⟨?_, ?_, ?_⟩
  · exact handled_of_digits minute_digits (by decide)
  · exact handled_of_digits minutes_digits (by decide)
  · intro n m hn hm hle hnone
    obtain rfl := denotes_unique minutes_digits hm
    have hsum : epoch.add? (120 * Time.second) ≠ none := by decide +kernel
    exact absurd hnone hsum

open Sample in
/-- A minute leaves a block and ten thousand years leave none; 4301 digits raise. -/
theorem not_retryAfterHolds :
    ¬ RetryAfterHolds asciiLibrary [] "example.org" "example.org" epoch "60" "400000000000" ∧
      ¬ RetryAfterHolds asciiLibrary [] "example.org" "example.org" epoch
        (String.ofList (List.replicate 4301 '9')) (String.ofList (List.replicate 4301 '9')) := by
  constructor
  · intro h
    have hminute : Denotes asciiLibrary "60" 60 := ⟨_, by decide, minute_digits, rfl⟩
    have hcentury : Denotes asciiLibrary "400000000000" 400000000000 :=
      ⟨_, by decide, century_digits, rfl⟩
    have hshort : epoch.add? (60 * Time.second) = some ⟨60 * Time.second, by decide⟩ := by
      decide +kernel
    have hlong : epoch.add? (400000000000 * Time.second) = none := by decide +kernel
    obtain ⟨b, hb, -⟩ := h.representable asciiHost hminute hcentury (by decide) hlong _ hshort
    exact nomatch hb
  · intro h
    obtain ⟨r, hr⟩ := h.total _ List.mem_cons_self
    have hhandled := (record429_ok_iff asciiHost).mp ⟨r, hr⟩
    have hlong := hhandled.decimal _ (nines_digits 4301)
    rw [List.length_replicate] at hlong
    omega

end NanFung
