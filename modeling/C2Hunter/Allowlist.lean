import C2Hunter.Python
import C2Hunter.RequestSecurity

/-!
# What an allowlist hides

`AllowlistEntry` of `domain.py` and the loop of `score_candidates` in `scoring.py`, which leaves out the
candidates that an entry matches.

* `AllowlistEntry.matchesMetrics` — whether an entry matches a candidate; it raises for texts that are no
  addresses.
* `scoreCandidates` — the candidates that remain; how one is scored is a parameter.
* `Covers` — what an entry is meant to hide. A domain suffix is compared letter by letter, without regard
  to labels, so that `matchesMetrics` goes beyond it.
-/

namespace C2Hunter.Allowlist

open List

open Security (Ipaddress)

/-- What the matching of an entry raises. -/
inductive Failure where
  /-- a text that is no address or network -/
  | valueError
  /-- an expiry without a time zone -/
  | typeError
  deriving DecidableEq, Repr

/-- A value of `metrics`: a text, or anything else, of which `str` prints something. -/
inductive Metric where
  | text (s : String)
  | other (printed : String)
  deriving DecidableEq, Repr

/-- `str(value)`. -/
def Metric.printed : Metric → String
  | text s => s
  | other printed => printed

/-- `Evidence`; what only the scoring reads is `rest`. -/
structure Evidence (ρ : Type) : Type where
  candidateIp : String
  type : String
  metrics : List (String × Metric)
  rest : ρ

/-- `AllowlistEntry`. -/
structure AllowlistEntry where
  type : String
  value : String
  expiresAt : Option DateTime := none
  enabled : Bool := true

/-- The types of entries that the code tells apart. -/
inductive Kind where
  | ip
  | cidr
  | domainSuffix
  /-- with the name of the metric -/
  | fingerprint (key : String)
  | unknown
  deriving DecidableEq, Repr

/-- The type of an entry, in capitals. -/
def kindOf (upper : String) : Kind :=
  if upper = "IP" then .ip
  else if upper = "CIDR" then .cidr
  else if upper = "DOMAIN_SUFFIX" then .domainSuffix
  else if upper = "TLS_FINGERPRINT" then .fingerprint "tls_fingerprint"
  else if upper = "CERT_FINGERPRINT" then .fingerprint "certificate_fingerprint"
  else .unknown

/-- The library: addresses, and `upper` and `lower` of texts. -/
structure Library (Address Network : Type) extends Ipaddress Address Network where
  upper : String → String
  lower : String → String

section

variable {Address Network ρ : Type} [DecidableEq Address] (lib : Library Address Network)

/-- `value.lower().lstrip(".")`. -/
def suffixOf (value : String) : List Char := (lib.lower value).toList.dropWhile (· = '.')

/-- `str(m.get("domain", "")).lower().rstrip(".")`. -/
def domainOf (metrics : List (String × Metric)) : List Char :=
  let domain := ((metrics.lookup "domain").map Metric.printed).getD ""
  ((lib.lower domain).toList.reverse.dropWhile (· = '.')).reverse

/-- An address, or the error of a text that is none. -/
def parsed {α : Type} (result : Option α) : Except Failure α :=
  match result with
  | some value => .ok value
  | none => .error .valueError

namespace AllowlistEntry

section

variable (entry : AllowlistEntry)

/-- `is_active`; an instant without a time zone is one of UTC, an expiry without one raises. -/
def isActive (now : DateTime) : Except Failure Bool :=
  match entry.enabled, entry.expiresAt with
  | false, _ => .ok false
  | true, none => .ok true
  | true, some expiry => if expiry.aware then .ok (now.micros < expiry.micros) else .error .typeError

/-- What `matches_metrics` does with an active entry. -/
def matchesActive (candidateIp : String) (metrics : List (List (String × Metric))) :
    Except Failure Bool :=
  match kindOf (lib.upper entry.type) with
  | .ip => do
    let candidate ← parsed (lib.ipAddress candidateIp)
    let address ← parsed (lib.ipAddress entry.value)
    return candidate = address
  | .cidr => do
    let candidate ← parsed (lib.ipAddress candidateIp)
    let network ← parsed (lib.ipNetwork entry.value)
    return lib.contains network candidate
  | .domainSuffix => .ok (metrics.any fun m => (suffixOf lib entry.value).isSuffixOf (domainOf lib m))
  | .fingerprint key => .ok (metrics.any fun m => m.lookup key = some (.text entry.value))
  | .unknown => .ok false

/-- `matches_metrics`. -/
def matchesMetrics (candidateIp : String) (metrics : List (List (String × Metric))) (now : DateTime) :
    Except Failure Bool := do
  if ← entry.isActive now then entry.matchesActive lib candidateIp metrics else return false

end

end AllowlistEntry

/-- How the candidates that are not hidden are scored. -/
structure Scoring (ρ Candidate : Type) : Type where
  candidate : String → List (Evidence ρ) → Except Failure Candidate
  candidateIp : Candidate → String
  score : Candidate → Int
  candidateIp_eq : ∀ ip items c, candidate ip items = .ok c → candidateIp c = ip

/-- `OPERATIONAL_EVIDENCE_TYPES`. -/
def operationalEvidenceTypes : List String :=
  ["TCP_COMMUNICATION_ATTEMPT_PATTERN", "TCP_COMMUNICATION_ATTEMPT_ANALYSIS_INCOMPLETE"]

/-- `grouped`: the evidence of each address, in the order of the addresses. -/
def grouped (evidence : List (Evidence ρ)) : List (String × List (Evidence ρ)) :=
  (evidence.map Evidence.candidateIp).eraseDups.map fun ip =>
    (ip, evidence.filter fun item => item.candidateIp = ip)

/-- `allowlist_items`: what is scored, or all if nothing is. -/
def allowlistItems (items : List (Evidence ρ)) : List (Evidence ρ) :=
  let scoring := items.filter fun item => item.type ∉ operationalEvidenceTypes
  if scoring = [] then items else scoring

/-- The metrics that the entries are compared with. -/
def allowlistMetrics (items : List (Evidence ρ)) : List (List (String × Metric)) :=
  (allowlistItems items).map Evidence.metrics

/-- `any(entry.matches(...) for entry in allowlist)`. -/
def hidden (now : DateTime) (ip : String) (items : List (Evidence ρ)) :
    List AllowlistEntry → Except Failure Bool
  | [] => .ok false
  | entry :: allowlist => do
    if ← entry.matchesMetrics lib ip (allowlistMetrics items) now then return true
    else hidden now ip items allowlist

variable {Candidate : Type} (scoring : Scoring ρ Candidate)

/-- The loop of `score_candidates`. -/
def remaining (allowlist : List AllowlistEntry) (now : DateTime) :
    List (String × List (Evidence ρ)) → Except Failure (List Candidate)
  | [] => .ok []
  | (ip, items) :: groups => do
    if ← hidden lib now ip items allowlist then remaining allowlist now groups
    else
      let candidate ← scoring.candidate ip items
      let candidates ← remaining allowlist now groups
      return candidate :: candidates

/-- `score_candidates`: the highest scores first. -/
def scoreCandidates (evidence : List (Evidence ρ)) (allowlist : List AllowlistEntry) (now : DateTime) :
    Except Failure (List Candidate) := do
  let candidates ← remaining lib scoring allowlist now (grouped evidence)
  return candidates.insertionSort fun c c' =>
    scoring.score c' < scoring.score c ∨
      scoring.score c = scoring.score c' ∧ scoring.candidateIp c ≤ scoring.candidateIp c'

/-! ## What entries are for -/

/-- An entry is enabled, and not expired at an instant. -/
def Active (entry : AllowlistEntry) (now : DateTime) : Prop :=
  entry.enabled = true ∧ ∀ expiry ∈ entry.expiresAt, now.micros < expiry.micros

/-- A suffix of a domain that begins at a label. -/
def SuffixAtLabel (suffix domain : List Char) : Prop :=
  suffix ≠ [] ∧ (domain = suffix ∨ '.' :: suffix <:+ domain)

/-- An entry covers a candidate with the given metrics. -/
def Covers (entry : AllowlistEntry) (ip : String) (metrics : List (List (String × Metric))) : Prop :=
  match kindOf (lib.upper entry.type) with
  | .ip => ∃ a, lib.ipAddress ip = some a ∧ lib.ipAddress entry.value = some a
  | .cidr => ∃ a n, lib.ipAddress ip = some a ∧ lib.ipNetwork entry.value = some n ∧
      lib.contains n a = true
  | .domainSuffix => ∃ m ∈ metrics, SuffixAtLabel (suffixOf lib entry.value) (domainOf lib m)
  | .fingerprint key => ∃ m ∈ metrics, m.lookup key = some (.text entry.value)
  | .unknown => False

/-- A domain suffix that begins at a label wherever it is found. -/
def AtLabels (entry : AllowlistEntry) (metrics : List (List (String × Metric))) : Prop :=
  kindOf (lib.upper entry.type) = .domainSuffix → ∀ m ∈ metrics,
    suffixOf lib entry.value <:+ domainOf lib m →
      SuffixAtLabel (suffixOf lib entry.value) (domainOf lib m)

variable {lib}

theorem parsed_eq_ok {α : Type} {result : Option α} {value : α} :
    parsed result = .ok value ↔ result = some value := by
  cases result <;> simp [parsed]

variable {now : DateTime} {ip : String} {entry : AllowlistEntry} {items : List (Evidence ρ)}
    {allowlist : List AllowlistEntry}

theorem AllowlistEntry.active_of_isActive (h : entry.isActive now = .ok true) : Active entry now := by
  rw [isActive.eq_def] at h
  split at h
  · cases h
  · next henabled hexpiry => exact ⟨henabled, by simp [hexpiry]⟩
  · next expiry henabled hexpiry =>
    split at h
    · exact ⟨henabled, by simpa [hexpiry] using h⟩
    · cases h

variable {metrics : List (List (String × Metric))} {groups : List (String × List (Evidence ρ))}

theorem AllowlistEntry.covers_of_matches (hlabels : AtLabels lib entry metrics)
    (h : entry.matchesActive lib ip metrics = .ok true) : Covers lib entry ip metrics := by
  rw [Covers.eq_def]
  rw [matchesActive.eq_def] at h
  split at h
  · obtain ⟨a, ha, h⟩ := Except.bind_eq_ok.mp h
    obtain ⟨b, hb, h⟩ := Except.bind_eq_ok.mp h
    obtain rfl : a = b := by simpa [pure, Except.pure] using h
    exact ⟨a, parsed_eq_ok.mp ha, parsed_eq_ok.mp hb⟩
  · obtain ⟨a, ha, h⟩ := Except.bind_eq_ok.mp h
    obtain ⟨n, hn, h⟩ := Except.bind_eq_ok.mp h
    exact ⟨a, n, parsed_eq_ok.mp ha, parsed_eq_ok.mp hn, by simpa [pure, Except.pure] using h⟩
  · next hkind =>
    obtain ⟨m, hm, hsuffix⟩ := any_eq_true.mp (Except.ok.inj h)
    exact ⟨m, hm, hlabels hkind m hm (isSuffixOf_iff_suffix.mp hsuffix)⟩
  · obtain ⟨m, hm, hvalue⟩ := any_eq_true.mp (Except.ok.inj h)
    exact ⟨m, hm, of_decide_eq_true hvalue⟩
  · cases h

/-- Where suffixes begin at labels, an entry matches only what it covers. -/
theorem AllowlistEntry.covers_of_matchesMetrics (hlabels : Active entry now → AtLabels lib entry metrics)
    (h : entry.matchesMetrics lib ip metrics now = .ok true) :
    Active entry now ∧ Covers lib entry ip metrics := by
  obtain ⟨active, hactive, h⟩ := Except.bind_eq_ok.mp h
  cases active with
  | false => cases h
  | true =>
    have hactive := active_of_isActive hactive
    exact ⟨hactive, covers_of_matches (hlabels hactive) h⟩

theorem exists_of_hidden (h : hidden lib now ip items allowlist = .ok true) :
    ∃ entry ∈ allowlist, entry.matchesMetrics lib ip (allowlistMetrics items) now = .ok true := by
  induction allowlist with
  | nil => cases h
  | cons entry allowlist ih =>
    obtain ⟨found, hfound, h⟩ := Except.bind_eq_ok.mp h
    cases found with
    | true => exact ⟨entry, mem_cons_self, hfound⟩
    | false =>
      obtain ⟨entry', hmem, hentry'⟩ := ih h
      exact ⟨entry', mem_cons_of_mem _ hmem, hentry'⟩

/-- A candidate that is left out is hidden. -/
theorem hidden_of_missing {candidates : List Candidate}
    (h : remaining lib scoring allowlist now groups = .ok candidates) (hmem : (ip, items) ∈ groups)
    (hmissing : ∀ c ∈ candidates, scoring.candidateIp c ≠ ip) :
    hidden lib now ip items allowlist = .ok true := by
  induction groups generalizing candidates with
  | nil => cases hmem
  | cons group groups ih =>
    obtain ⟨found, hfound, h⟩ := Except.bind_eq_ok.mp h
    cases found with
    | true =>
      obtain rfl | hmem := mem_cons.mp hmem
      · exact hfound
      · exact ih h hmem hmissing
    | false =>
      obtain ⟨c, hc, h⟩ := Except.bind_eq_ok.mp h
      obtain ⟨rest, hrest, h⟩ := Except.bind_eq_ok.mp h
      cases h
      obtain rfl | hmem := mem_cons.mp hmem
      · exact absurd (scoring.candidateIp_eq _ _ _ hc) (hmissing c mem_cons_self)
      · exact ih hrest hmem fun c hc => hmissing c (mem_cons_of_mem _ hc)

/-- An entry that matches nothing can be removed. -/
theorem hidden_remove {before after : List AllowlistEntry}
    (h : entry.matchesMetrics lib ip (allowlistMetrics items) now = .ok false) :
    hidden lib now ip items (before ++ entry :: after) = hidden lib now ip items (before ++ after) := by
  induction before with
  | nil =>
    rw [nil_append, nil_append, hidden, h]
    rfl
  | cons e before ih => rw [cons_append, cons_append, hidden, hidden, ih]

theorem remaining_congr {allowlist' : List AllowlistEntry}
    (h : ∀ group ∈ groups, hidden lib now group.1 group.2 allowlist = hidden lib now group.1 group.2 allowlist') :
    remaining lib scoring allowlist now groups = remaining lib scoring allowlist' now groups := by
  induction groups with
  | nil => rfl
  | cons group groups ih =>
    rw [remaining, remaining, h group mem_cons_self, ih fun g hg => h g (mem_cons_of_mem _ hg)]

end

/-! ## Domains that only end alike -/

/-- The library for IPv4 and ASCII. -/
def ascii : Library Nat (Nat × Nat) where
  toIpaddress := .ipv4
  upper := String.toUpper
  lower := String.toLower

/-- All candidates have the same score. -/
def flat : Scoring Unit String where
  candidate ip _ := .ok ip
  candidateIp := id
  score _ := 0
  candidateIp_eq _ _ _ h := (Except.ok.inj h).symm

/-- Evidence of a domain. -/
def domainEvidence (domain : String) : Evidence Unit where
  candidateIp := "203.0.113.9"
  type := "PERIODIC_BEACON"
  metrics := [("domain", .text domain)]
  rest := ()

theorem epoch_between : minMicros ≤ 0 ∧ 0 ≤ maxMicros := by decide

/-- The start of the epoch. -/
def epoch : DateTime := ⟨0, true, epoch_between⟩

end C2Hunter.Allowlist
