import All4One.Rest.Secret

open Foundation

namespace All4One.ApiRest

variable {security : Membership.SecurityConfig} {request : Request} {secret path : String}
  {value : Bytes}

-- `secret` is the one that a node has been configured with.
structure IsSecret (security : Membership.SecurityConfig) (secret : String) : Prop where
  mode    : security.mode = "shared-secret"
  trim    : Text.trim security.sharedSecret = secret
  ne      : secret ≠ ""
  visible : ∀ c ∈ secret.toList, '!' ≤ c ∧ c ≤ '~'

def Request.HeaderHas (request : Request) (secret : String) : Prop :=
  request.headers.lookup "x-all4one-secret" = some (Bytes.ofString secret)

-- The value of the first `secret` parameter, decoded, is the secret.
def Request.QueryHas (request : Request) (secret : String) : Prop :=
  ∃ value, secretParam request = some value ∧
    Url.percentDecode (Bytes.ofString value) = Bytes.ofString secret

-- The value of the first `secret` parameter has an escape, and it is the secret or an encoding of it.
def Request.QueryMisread (request : Request) (secret : String) : Prop :=
  ∃ value, secretParam request = some value ∧ Url.isEscaped (Bytes.ofString value) ∧
    (value = secret ∨ Url.percentDecode (Bytes.ofString value) = Bytes.ofString secret)

-- No protected route leads to the paths that the gate lets through.
theorem not_internal {router : Router} (h : router.IsProtected path) :
    ¬ "/v1/internal/".toList <+: path.toList := by
  intro hp
  obtain ⟨r, hr, hm⟩ := h
  have hd : ∀ r ∈ protectedRoutes, ¬ literalPart r <+: "/v1/internal/".toList ∧
      ¬ "/v1/internal/".toList <+: literalPart r := by
    decide
  rcases List.prefix_or_prefix_of_prefix (router.literal _ _ hm) hp with h | h
  · exact (hd r hr).1 h
  · exact (hd r hr).2 h

section Header

theorem toNat_ofNat {b : UInt8} (h : b.toNat < 128) : (Char.ofNat b.toNat).toNat = b.toNat := by
  rw [Char.ofNat, dif_pos (.inl (Nat.lt_trans h (by decide)))]
  rfl

theorem toNat_lt_of_visible {b : UInt8} (h : (32 ≤ b ∧ b < 127) ∨ b = 9) : b.toNat < 128 := by
  rcases h with ⟨_, h⟩ | rfl
  · exact Nat.lt_trans (UInt8.lt_iff_toNat_lt.mp h) (by decide)
  · decide

theorem ofString_of_headerToStr {s : String} (h : headerToStr value = some s) :
    Bytes.ofString s = value := by
  rw [headerToStr] at h
  split at h
  case isFalse => cases h
  case isTrue hv =>
    simp only [List.all_eq_true, decide_eq_true_eq] at hv
    have hn {b} (hb : b ∈ value) := toNat_ofNat (toNat_lt_of_visible (hv b hb))
    rw [← Option.some.inj h, Bytes.ofString_ofList, List.map_map]
    · refine (List.map_congr_left fun b hb => ?_).trans (List.map_id _)
      rw [Function.comp_apply, hn hb, UInt8.ofNat_toNat]
      rfl
    · intro c hc
      obtain ⟨b, hb, rfl⟩ := List.mem_map.mp hc
      rw [hn hb]
      exact toNat_lt_of_visible (hv b hb)

theorem IsSecret.toNat (h : IsSecret security secret) {c : Char} (hc : c ∈ secret.toList) :
    33 ≤ c.toNat ∧ c.toNat ≤ 126 :=
  h.visible c hc

theorem IsSecret.headerToStr (h : IsSecret security secret) :
    headerToStr (Bytes.ofString secret) = some secret := by
  have hb {c} (hc : c ∈ secret.toList) : (UInt8.ofNat c.toNat).toNat = c.toNat := by
    have := h.toNat hc
    exact UInt8.toNat_ofNat_of_lt' (Nat.lt_trans (Nat.lt_succ_of_le this.2) (by decide))
  rw [← String.ofList_toList (s := secret), Bytes.ofString_ofList fun c hc => by
    have := h.toNat hc
    omega]
  rw [ApiRest.headerToStr, if_pos]
  · rw [List.map_map]
    refine congrArg (some ∘ String.ofList) <| (List.map_congr_left fun c hc => ?_).trans (List.map_id _)
    rw [Function.comp_apply, hb hc]
    exact Char.ofNat_toNat c
  · simp only [List.all_eq_true, List.mem_map, decide_eq_true_eq]
    rintro _ ⟨c, hc, rfl⟩
    have := h.toNat hc
    rw [UInt8.le_iff_toNat_le, UInt8.lt_iff_toNat_lt, hb hc]
    exact .inl ⟨Nat.le_of_succ_le this.1, Nat.lt_succ_of_le this.2⟩

theorem secretHeader_iff (h : IsSecret security secret) :
    secretHeader request = secret ↔ request.HeaderHas secret := by
  rw [secretHeader, Request.HeaderHas]
  constructor
  case mp =>
    intro hs
    cases hv : (request.headers.lookup "x-all4one-secret").bind ApiRest.headerToStr
    case none =>
      rw [hv] at hs
      exact absurd hs.symm h.ne
    case some s =>
      rw [hv, Option.getD_some] at hs
      obtain ⟨value, hl, hv⟩ := Option.bind_eq_some_iff.mp hv
      rw [hl, ← hs, ofString_of_headerToStr hv]
  case mpr =>
    intro hl
    rw [hl, Option.bind_some, h.headerToStr, Option.getD_some]

end Header

theorem querySecret_iff (h : IsSecret security secret) :
    querySecret request = secret ↔ secretParam request = some secret := by
  rw [querySecret]
  cases secretParam request
  case none       => exact iff_of_false (fun he => h.ne he.symm) (by simp)
  case some value => simp

theorem sharedSecretMiddleware_ok_iff (h : IsSecret security secret)
    (hp : ¬ "/v1/internal/".toList <+: request.path.toList) :
    sharedSecretMiddleware security request = .ok () ↔
    request.HeaderHas secret ∨ querySecret request = secret := by
  rw [← secretHeader_iff h, sharedSecretMiddleware, if_neg (not_not.mpr h.mode),
    if_neg hp]
  simp only [h.trim, h.ne, ↓reduceIte]
  split
  case isTrue hn  => exact iff_of_false (by simp) (not_or.mpr hn)
  case isFalse hn =>
    rw [not_and_or, not_not, not_not] at hn
    exact iff_of_true rfl hn

-- An encoding of the secret is taken for the secret if and only if it has no escapes.
theorem queryHas_iff : (secretParam request = some secret ↔ request.QueryHas secret) ↔
    ¬ request.QueryMisread secret := by
  rw [Request.QueryHas, Request.QueryMisread]
  cases secretParam request
  case none => simp
  case some value =>
    simp only [Option.some.injEq, exists_eq_left']
    by_cases he : Url.isEscaped (Bytes.ofString value)
    case neg =>
      rw [Url.percentDecode_of_not_isEscaped he, Bytes.ofString_inj]
      simp [he]
    case pos =>
      have hne := Url.percentDecode_ne_self he
      have hd : value = secret → Url.percentDecode (Bytes.ofString value) ≠ Bytes.ofString secret :=
        fun hv => hv ▸ hne
      simp only [he, true_and]
      tauto

-- The gate admits those that have the secret, and nobody else, if and only if the value in the query
-- is not misread. The header is enough on its own.
theorem admits_iff (router : Router) (security : Membership.SecurityConfig) (secret : String)
    (request : Request) (h : IsSecret security secret) (hp : router.IsProtected request.path) :
    (sharedSecretMiddleware security request = .ok () ↔
      request.HeaderHas secret ∨ request.QueryHas secret) ↔
    request.HeaderHas secret ∨ ¬ request.QueryMisread secret := by
  rw [sharedSecretMiddleware_ok_iff h (not_internal hp), querySecret_iff h]
  by_cases hh : request.HeaderHas secret
  case pos => simp [hh]
  case neg => simp only [hh, false_or, queryHas_iff]

def sampleSecurity (sharedSecret : String) : Membership.SecurityConfig where
  mode := "shared-secret"
  sharedSecret

-- A router that finds one of the routes.
def sampleRouter : Router where
  route path := if path = "/v1/ops/events" then some "/v1/ops/events" else none
  literal path r h := by
    split at h
    case isTrue hp => cases h; rw [hp]; decide
    case isFalse   => cases h

theorem sampleRouter_events : sampleRouter.IsProtected "/v1/ops/events" :=
  ⟨"/v1/ops/events", by decide, rfl⟩

def eventsRequest (query : String) : Request where
  path    := "/v1/ops/events"
  query   := some query
  headers := []

-- The first parameter of the name is what counts.
theorem admits_iff_sample : sharedSecretMiddleware (sampleSecurity " s3-cret\n")
      (eventsRequest "from=1&secret=s3-cret&secret=x") = .ok () ∧
    (eventsRequest "from=1&secret=s3-cret&secret=x").QueryHas "s3-cret" := by
  have hs : IsSecret (sampleSecurity " s3-cret\n") "s3-cret" := {
    mode    := rfl
    trim    := by decide +kernel
    ne      := by decide
    visible := List.forall_iff_forall_mem.mp (by decide)
  }
  have hv : secretParam (eventsRequest "from=1&secret=s3-cret&secret=x") = some "s3-cret" := by
    decide +kernel
  have he : ¬ Url.isEscaped (Bytes.ofString "s3-cret") := by decide +kernel
  have hq : (eventsRequest "from=1&secret=s3-cret&secret=x").QueryHas "s3-cret" :=
    ⟨_, hv, Url.percentDecode_of_not_isEscaped he⟩
  refine ⟨((admits_iff _ _ _ _ hs sampleRouter_events).mpr (.inr ?_)).mpr (.inr hq), hq⟩
  rintro ⟨value, hs, hv', _⟩
  rw [hv] at hs
  exact he (Option.some.inj hs ▸ hv')

-- A browser does not send the quotation mark as it is.
theorem admits_fails : ¬ ∀ (router : Router) (security : Membership.SecurityConfig)
    (secret : String) (request : Request), IsSecret security secret →
    router.IsProtected request.path →
    (sharedSecretMiddleware security request = .ok () ↔
      request.HeaderHas secret ∨ request.QueryHas secret) := by
  intro hall
  have hs : IsSecret (sampleSecurity " a\"b\n") "a\"b" := {
    mode    := rfl
    trim    := by decide +kernel
    ne      := by decide
    visible := List.forall_iff_forall_mem.mp (by decide)
  }
  have h := (hall _ _ _ (eventsRequest "secret=a%22b") hs sampleRouter_events).mpr
    (.inr ⟨"a%22b", by decide +kernel, by decide +kernel⟩)
  have hr : sharedSecretMiddleware (sampleSecurity " a\"b\n") (eventsRequest "secret=a%22b") ≠
      .ok () := by
    decide +kernel
  exact hr h

end All4One.ApiRest
