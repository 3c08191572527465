import ExpiringCache.Json.Read
import ExpiringCache.Settings

/-!
# Settings from JSON

Settings as a JSON object, or as an array of their fields in order. Fields that
are left out have their defaults. Some fields go by several names. Texts are
taken as they are: an empty user name or password is still one.
-/

namespace ExpiringCache

open Json Document

namespace MemorySettings

def fields : List (FieldReader MemorySettings) :=
  [⟨"sweepIntervalSeconds", ["sweep_interval_seconds", "cleanupInterval"],
    fun d s => d.unsigned.map fun n => { s with sweepSeconds := n }⟩]

def ofDocument : Document → Except ReadError MemorySettings :=
  readStructure "MemorySettings" fields {}

end MemorySettings

namespace EmbeddedSettings

def fields : List (FieldReader EmbeddedSettings) :=
  [⟨"path", [], fun d s => (d.textAs "path string").map fun p => { s with path := p }⟩,
   ⟨"sweepIntervalSeconds", ["sweep_interval_seconds"],
    fun d s => d.unsigned.map fun n => { s with sweepSeconds := n }⟩]

def ofDocument : Document → Except ReadError EmbeddedSettings :=
  readStructure "EmbeddedSettings" fields {}

end EmbeddedSettings

namespace RemoteSettings

def fields : List (FieldReader RemoteSettings) :=
  [⟨"address", ["addr"], fun d s => d.text.map fun a => { s with address := a }⟩,
   ⟨"username", [], fun d s => d.optionalText.map fun u => { s with username := u }⟩,
   ⟨"password", [], fun d s => d.optionalText.map fun p => { s with password := p }⟩,
   ⟨"databaseIndex", ["database_index", "db"],
    fun d s => d.signed.map fun n => { s with database := n }⟩,
   ⟨"cluster", [], fun d s => d.boolean.map fun b => { s with cluster := b }⟩]

def ofDocument : Document → Except ReadError RemoteSettings :=
  readStructure "RemoteSettings" fields {}

end RemoteSettings

namespace Settings

def fields : List (FieldReader Settings) :=
  [⟨"kind", [], fun d s => d.text.map fun name => { s with engine := .ofName name }⟩,
   ⟨"delimiter", [], fun d s => d.text.map fun t => { s with delimiter := t }⟩,
   ⟨"memory", [], fun d s => (MemorySettings.ofDocument d).map fun m => { s with memory := m }⟩,
   ⟨"embedded", [],
    fun d s => (EmbeddedSettings.ofDocument d).map fun e => { s with embedded := e }⟩,
   ⟨"remote", [], fun d s => (RemoteSettings.ofDocument d).map fun r => { s with remote := r }⟩]

def ofDocument : Document → Except ReadError Settings :=
  readStructure "CacheSettings" fields {}

/-- Reads settings from a JSON text. -/
def ofText : String → Except ReadError Settings := readText ofDocument

end Settings

end ExpiringCache
