import OtelTracing.Proto
import OtelTracing.Proofs.ReadBackProofs

/-!
# Proofs: the OTLP messages round-trip

Every message is recovered from its fields, from the innermost messages outwards.
-/

namespace OtelTracing.Proto

open ByteMem Wire

theorem kind_ofCode_code (k : SpanKind) : SpanKind.ofCode k.code = some k := by
  cases k <;> rfl

theorem status_ofCode_code (c : StatusCode) : StatusCode.ofCode c.code = some c := by
  cases c <;> rfl

/-- A repeated field of embedded messages reads back. -/
theorem repeated_messages {α : Type} {num : Nat} {ofFields : List Entry → Option α}
    {fields : α → List Entry} (h : ∀ a, ofFields (fields a) = some a) {es : List Entry}
    {as : List α} (hall : all num es = all num (messages num (as.map fun a => encode (fields a)))) :
    repeated num ofFields es = some as := by
  rw [repeated, hall, all_messages, List.map_map]
  have := mapM_some (f := fun v => (decode (asBytes (some v))).bind ofFields)
    (g := Value.bytes ∘ fun a => encode (fields a)) (k := id) (l := as) ?_
  · simpa using this
  · intro a _
    simp [asBytes, decode_encode, h]

theorem embedded_messages {num : Nat} {es fs : List Entry}
    (hall : all num es = all num (messages num [encode fs])) : embedded num es = some fs := by
  rw [embedded, hall, all_messages]
  exact decode_encode fs

theorem anyValue_ofFields (m : AnyValue) : AnyValue.ofFields m.fields = some m := by
  cases m with
  | stringValue v => rfl
  | boolValue v => cases v <;> rfl
  | intValue v =>
    show some (AnyValue.intValue (UInt64.ofNat v.toUInt64.toNat).toInt64) = _
    rw [UInt64.ofNat_toNat]
    rfl
  | doubleValue bits => rfl

theorem keyValue_ofFields (m : KeyValue) : KeyValue.ofFields m.fields = some m := by
  have hvalue : embedded 2 m.fields = some m.value.fields :=
    embedded_messages (by simp [KeyValue.fields])
  have hkey : asBytes (all 1 m.fields).getLast? = m.key := by simp [KeyValue.fields]
  simp only [KeyValue.ofFields, hvalue, hkey, Option.bind_eq_bind, Option.bind_some,
    anyValue_ofFields]

theorem event_ofFields (m : Event) : Event.ofFields m.fields = some m := by
  have hattrs : repeated 3 KeyValue.ofFields m.fields = some m.attributes :=
    repeated_messages keyValue_ofFields (by simp [Event.fields])
  have htime : asFixed64 (all 1 m.fields).getLast? = m.timeUnixNano := by simp [Event.fields]
  have hname : asBytes (all 2 m.fields).getLast? = m.name := by simp [Event.fields]
  have hdrop : asVarint (all 4 m.fields).getLast? = m.droppedAttributesCount := by
    simp [Event.fields]
  simp only [Event.ofFields, hattrs, htime, hname, hdrop, Option.bind_eq_bind, Option.bind_some]

theorem status_ofFields (m : Status) : Status.ofFields m.fields = some m := by
  have hmessage : asBytes (all 2 m.fields).getLast? = m.message := by simp [Status.fields]
  have hcode : asVarint (all 3 m.fields).getLast? = m.code.code := by simp [Status.fields]
  simp only [Status.ofFields, hmessage, hcode, status_ofCode_code, Option.bind_eq_bind,
    Option.bind_some]

theorem span_ofFields (m : Span) : Span.ofFields m.fields = some m := by
  have hkind : asVarint (all 6 m.fields).getLast? = m.kind.code := by simp [Span.fields]
  have hattrs : repeated 9 KeyValue.ofFields m.fields = some m.attributes :=
    repeated_messages keyValue_ofFields (by simp [Span.fields])
  have hevents : repeated 11 Event.ofFields m.fields = some m.events :=
    repeated_messages event_ofFields (by simp [Span.fields])
  have hstatus : embedded 15 m.fields = some m.status.fields :=
    embedded_messages (by simp [Span.fields])
  have htrace : asBytes (all 1 m.fields).getLast? = m.traceId := by simp [Span.fields]
  have hspan : asBytes (all 2 m.fields).getLast? = m.spanId := by simp [Span.fields]
  have hparent : asBytes (all 4 m.fields).getLast? = m.parentSpanId := by simp [Span.fields]
  have hname : asBytes (all 5 m.fields).getLast? = m.name := by simp [Span.fields]
  have hstart : asFixed64 (all 7 m.fields).getLast? = m.startTimeUnixNano := by
    simp [Span.fields]
  have hend : asFixed64 (all 8 m.fields).getLast? = m.endTimeUnixNano := by simp [Span.fields]
  have hda : asVarint (all 10 m.fields).getLast? = m.droppedAttributesCount := by
    simp [Span.fields]
  have hde : asVarint (all 12 m.fields).getLast? = m.droppedEventsCount := by
    simp [Span.fields]
  simp only [Span.ofFields, hkind, kind_ofCode_code, hattrs, hevents, hstatus, status_ofFields,
    htrace, hspan, hparent, hname, hstart, hend, hda, hde, Option.bind_eq_bind, Option.bind_some]

theorem scope_ofFields (m : InstrumentationScope) :
    InstrumentationScope.ofFields m.fields = some m := by
  have hname : asBytes (all 1 m.fields).getLast? = m.name := by
    simp [InstrumentationScope.fields]
  have hversion : asBytes (all 2 m.fields).getLast? = m.version := by
    simp [InstrumentationScope.fields]
  rw [InstrumentationScope.ofFields, hname, hversion]

theorem scopeSpans_ofFields (m : ScopeSpans) : ScopeSpans.ofFields m.fields = some m := by
  have hscope : embedded 1 m.fields = some m.scope.fields :=
    embedded_messages (by simp [ScopeSpans.fields])
  have hspans : repeated 2 Span.ofFields m.fields = some m.spans :=
    repeated_messages span_ofFields (by simp [ScopeSpans.fields])
  simp only [ScopeSpans.ofFields, hscope, scope_ofFields, hspans, Option.bind_eq_bind,
    Option.bind_some]

theorem resource_ofFields (m : Resource) : Resource.ofFields m.fields = some m := by
  have hattrs : repeated 1 KeyValue.ofFields m.fields = some m.attributes :=
    repeated_messages keyValue_ofFields rfl
  simp only [Resource.ofFields, hattrs, Option.bind_eq_bind, Option.bind_some]

theorem resourceSpans_ofFields (m : ResourceSpans) :
    ResourceSpans.ofFields m.fields = some m := by
  have hresource : embedded 1 m.fields = some m.resource.fields :=
    embedded_messages (by simp [ResourceSpans.fields])
  have hscopes : repeated 2 ScopeSpans.ofFields m.fields = some m.scopeSpans :=
    repeated_messages scopeSpans_ofFields (by simp [ResourceSpans.fields])
  simp only [ResourceSpans.ofFields, hresource, resource_ofFields, hscopes, Option.bind_eq_bind,
    Option.bind_some]

/-- A request is recovered from its encoding. -/
theorem request_decode_encode (m : ExportTraceServiceRequest) :
    ExportTraceServiceRequest.decode m.encode = some m := by
  have hspans : repeated 1 ResourceSpans.ofFields m.fields = some m.resourceSpans :=
    repeated_messages resourceSpans_ofFields rfl
  rw [ExportTraceServiceRequest.decode, ExportTraceServiceRequest.encode, decode_encode]
  simp only [Option.bind_some, ExportTraceServiceRequest.ofFields, hspans, Option.bind_eq_bind]

end OtelTracing.Proto
