import HttpSocksProxy.Http.Head

/-! The fields of the head written upstream: one `Host`, one `Connection: close`, at
most one framing field, and the end-to-end fields of the request. -/
namespace HttpSocksProxy.Http
open MessageHead (Field read)

/-- Fields for one hop only. -/
def hopByHop : List Text :=
  ["connection", "proxy-connection", "proxy-authorization", "proxy-authenticate", "keep-alive",
    "te", "trailer", "upgrade"].map latin

/-- The names of the fields that the proxy writes itself. -/
def own : List Text := [host, connection, contentLength, transferEncoding]

/-- An element of a `Connection` field is this name, in any case and spacing. -/
def Nominated (headers : List Field) (name : Text) : Prop :=
  ∃ f ∈ headers, lower f.name = connection ∧ ∃ element ∈ f.value.splitOn 44,
    strip element ≠ [] ∧ lower (strip element) = lower name

/-- A field that stays with the proxy. -/
def Withheld (headers : List Field) (name : Text) : Prop :=
  lower name ∈ hopByHop ∨ lower name ∈ own ∨ Nominated headers name

instance (headers : List Field) (name : Text) : Decidable (Nominated headers name) :=
  inferInstanceAs (Decidable (∃ f ∈ headers, _))

instance (headers : List Field) (name : Text) : Decidable (Withheld headers name) :=
  inferInstanceAs (Decidable (_ ∨ _))

theorem mem_connectionTokens (headers : List Field) (name : Text) :
    lower name ∈ connectionTokens headers ↔ Nominated headers name := by
  simp only [connectionTokens, elements, getAll, Nominated, List.mem_map, List.mem_filter,
    List.mem_flatMap, decide_eq_true_eq]
  constructor
  · rintro ⟨_, ⟨⟨v, ⟨f, ⟨member, nominates⟩, rfl⟩, element, piece, rfl⟩, filled⟩, same⟩
    exact ⟨f, member, nominates, element, piece, filled, same⟩
  · rintro ⟨f, member, nominates, element, piece, filled, same⟩
    exact ⟨_, ⟨⟨_, ⟨f, ⟨member, nominates⟩, rfl⟩, element, piece, rfl⟩, filled⟩, same⟩

theorem blocked_iff (headers : List Field) (name : Text) :
    lower name ∈ alwaysBlocked ++ connectionTokens headers ↔ Withheld headers name := by
  have all : ∀ x ∈ alwaysBlocked, x ∈ hopByHop ++ own := by decide +kernel
  have only : ∀ x ∈ hopByHop ++ own, x ∈ alwaysBlocked := by decide +kernel
  have listed : lower name ∈ alwaysBlocked ↔ lower name ∈ hopByHop ++ own := ⟨all _, only _⟩
  rw [List.mem_append, listed, List.mem_append, mem_connectionTokens, Withheld, or_assoc]

theorem forwardHeaders_eq (headers : List Field) :
    forwardHeaders headers = headers.filter fun f => ¬ Withheld headers f.name := by
  simp only [forwardHeaders, blocked_iff]

theorem lower_own : lower (latin "Host") = host ∧ lower (latin "Connection") = connection ∧
    lower (latin "Transfer-Encoding") = transferEncoding ∧
    lower (latin "Content-Length") = contentLength := by
  decide

theorem own_distinct : host ≠ connection ∧ host ≠ contentLength ∧ host ≠ transferEncoding ∧
    connection ≠ contentLength ∧ connection ≠ transferEncoding := by
  decide

/-- At most one field announces the framing. -/
theorem Framing.pairs_own (framing : Framing) : framing.pairs.length ≤ 1 ∧
    ∀ f ∈ framing.pairs, lower f.1 = contentLength ∨ lower f.1 = transferEncoding := by
  cases framing <;> simp [pairs, lower_own]

theorem Framing.pairs_other (framing : Framing) (length : contentLength ≠ name)
    (transfer : transferEncoding ≠ name) : framing.pairs.filter (fun f => lower f.1 = name) = [] := by
  rw [List.filter_eq_nil_iff]
  intro f member
  rcases framing.pairs_own.2 f member with named | named <;> simp [named, length, transfer]

section Fields
variable {r : Request} (a : Accepted r)

/-- What selects none of the end-to-end fields selects from the fields of the proxy. -/
theorem filter_own {p : Text × Text → Bool} (silent : ∀ f, lower f.1 ∉ own → p f = false) :
    a.fields.filter p = [(latin "Host", utf8 a.hostValue)].filter p ++ a.framing.pairs.filter p ++
      [(latin "Connection", latin "close")].filter p := by
  have forwarded : ((forwardHeaders r.headers).map fun f => (f.name, utf8 f.value)).filter p = [] := by
    rw [List.filter_eq_nil_iff]
    intro pair member
    obtain ⟨f, inside, rfl⟩ := List.mem_map.mp member
    rw [forwardHeaders_eq] at inside
    have kept : ¬ Withheld r.headers f.name := by simpa using (List.mem_filter.mp inside).2
    simp [silent (f.name, utf8 f.value) fun mine => kept (.inr (.inl mine))]
  rw [Accepted.fields, ← List.singleton_append, List.filter_append, List.filter_append,
    List.filter_append, forwarded, List.append_nil]

/-- The fields that the proxy does not write itself are the end-to-end fields of
the request, each as often as it came and in the order they came in. -/
theorem filter_forwarded : a.fields.filter (fun f => lower f.1 ∉ own) =
    (r.headers.filter fun f => ¬ Withheld r.headers f.name).map fun f => (f.name, utf8 f.value) := by
  have framing : a.framing.pairs.filter (fun f => lower f.1 ∉ own) = [] := by
    rw [List.filter_eq_nil_iff]
    intro f member
    rcases a.framing.pairs_own.2 f member with named | named <;> simp [named, own]
  have forwarded : ∀ f ∈ (r.headers.filter fun f => ¬ Withheld r.headers f.name).map
      (fun f => (f.name, utf8 f.value)), decide (lower f.1 ∉ own) = true := by
    intro pair member
    obtain ⟨f, inside, rfl⟩ := List.mem_map.mp member
    have kept : ¬ Withheld r.headers f.name := by simpa using (List.mem_filter.mp inside).2
    exact decide_eq_true fun mine => kept (.inr (.inl mine))
  rw [Accepted.fields, ← List.singleton_append, List.filter_append, List.filter_append,
    List.filter_append, framing, forwardHeaders_eq, List.filter_eq_self.mpr forwarded]
  simp [lower_own, own]

/-- Whatever the received fields, the head written upstream has exactly one `Host`
and one `Connection: close`, at most one framing field, and of the other fields
exactly those that are neither hop-by-hop nor nominated by a `Connection` field. -/
theorem head_sanitized (rest : List UInt8) : ∃ start fields,
    read (a.headBytes ++ rest) = some (start, fields, rest) ∧
    (fields.filter fun f => lower f.1 = host).length = 1 ∧
    (fields.filter fun f => lower f.1 = connection).map Prod.snd = [latin "close"] ∧
    (fields.filter fun f => lower f.1 = contentLength ∨ lower f.1 = transferEncoding).length ≤ 1 ∧
    (∀ f ∈ fields, lower f.1 ∉ own → lower f.1 ∉ hopByHop ∧ ¬ Nominated r.headers f.1) ∧
    fields.filter (fun f => lower f.1 ∉ own) =
      (r.headers.filter fun f => ¬ Withheld r.headers f.name).map fun f => (f.name, utf8 f.value) := by
  obtain ⟨hostConnection, hostLength, hostTransfer, connectionLength, connectionTransfer⟩ := own_distinct
  have silent : ∀ x ∈ own, ∀ f : Text × Text, lower f.1 ∉ own → decide (lower f.1 = x) = false :=
    fun x mine f other => decide_eq_false fun same => other (same ▸ mine)
  refine ⟨a.startLine, a.fields, a.read_headBytes rest, ?_, ?_, ?_, ?_, filter_forwarded a⟩
  · rw [filter_own a (silent host (by simp [own])),
      a.framing.pairs_other hostLength.symm hostTransfer.symm]
    simp [lower_own, hostConnection.symm]
  · rw [filter_own a (silent connection (by simp [own])),
      a.framing.pairs_other connectionLength.symm connectionTransfer.symm]
    simp [lower_own, hostConnection]
  · have framing : a.framing.pairs.filter (fun f => lower f.1 = contentLength ∨
        lower f.1 = transferEncoding) = a.framing.pairs :=
      List.filter_eq_self.mpr fun f member => by simpa using a.framing.pairs_own.2 f member
    rw [filter_own a fun f other => by simp_all [own], framing]
    simp [lower_own, hostLength, hostTransfer, connectionLength, connectionTransfer,
      a.framing.pairs_own.1]
  · intro f member other
    have kept : f ∈ a.fields.filter fun f => lower f.1 ∉ own := by simp [member, other]
    rw [filter_forwarded a] at kept
    obtain ⟨g, inside, rfl⟩ := List.mem_map.mp kept
    have free : ¬ Withheld r.headers g.name := by simpa using (List.mem_filter.mp inside).2
    exact ⟨fun hop => free (.inl hop), fun nominated => free (.inr (.inr nominated))⟩

end Fields
end HttpSocksProxy.Http
