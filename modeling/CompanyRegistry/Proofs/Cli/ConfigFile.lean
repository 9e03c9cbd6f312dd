import CompanyRegistry.Cli.Program
import CompanyRegistry.Proofs.Config.RoundTrip
import CompanyRegistry.Proofs.Text.Octets

/-!
# The printed configuration

The command that prints the configuration reads it as the server does, from the file that is named, else
from the usual file, else from none (`Loaded`). Whatever it has read can be printed, since no number in a
file is too large for one; and what is printed is read as the configuration that was loaded, with the
level of the command line in place of its own.
-/

namespace CompanyRegistry

/-- A configuration with another level of logging, if one is given. -/
def Config.withLogLevel (c : Config) (level : Option String) : Config :=
  { c with general := { c.general with logLevel := level.getD c.general.logLevel } }

namespace Cli

/-- A file holds the text of a configuration. -/
def Holds (octets : Option Bytes) (c : Config) : Prop :=
  ∃ b text, octets = some b ∧ Bytes.ofUtf8? b = some text ∧ Config.parse? text = some c

/-- The configuration that is loaded where this file is named or none is. -/
inductive Loaded (files : String → Option Bytes) : Option String → Config → Prop
  | named {path : String} {c : Config} (h : Holds (files path) c) : Loaded files (some path) c
  | usual {c : Config} (h : Holds (files defaultConfig) c) : Loaded files none c
  | absent (h : files defaultConfig = none) : Loaded files none {}

variable {files : String → Option Bytes} {a : Arguments} {c : Config}

theorem loadFile_of_holds {octets : Option Bytes} (h : Holds octets c) (path : String) :
    loadFile path octets = .ok c := by
  obtain ⟨b, text, rfl, htext, hparse⟩ := h
  simp only [loadFile, htext, Config.load, hparse]

theorem Loaded.isRenderable {path : Option String} (h : Loaded files path c) :
    c.isRenderable = true := by
  rcases h with ⟨b, text, -, -, hparse⟩ | ⟨b, text, -, -, hparse⟩ | hnone
  · exact Config.isRenderable_of_parse? hparse
  · exact Config.isRenderable_of_parse? hparse
  · decide

theorem configuration_of_loaded (h : Loaded files a.config c) :
    configuration files a = .ok (c.withLogLevel a.logLevel) := by
  obtain ⟨command, path, level⟩ := a
  rcases h with hholds | hholds | hnone
  · simp only [configuration, loadFile_of_holds hholds]
    cases level <;> rfl
  · have hthere : (files defaultConfig).isSome = true := by
      obtain ⟨b, text, hfile, -⟩ := hholds
      rw [hfile]
      rfl
    simp only [configuration, hthere, if_true, loadFile_of_holds hholds]
    cases level <;> rfl
  · simp only [configuration, hnone, Option.isSome_none]
    cases level <;> rfl

/-- **The configuration is what the file says, and the printed one says the same.**

* A text that is read as a configuration is a document that the configuration follows: each field that the
  document names has the value that it shows, and each other field, those of a missing section
  included, is as usual. And the configuration can be printed, and is read back from what is printed.
* Every configuration that can be printed is read back, whatever its strings and its brokers are.
* What the command prints for the loaded configuration is read as this configuration, with the level of
  logging replaced by the one that the arguments give, if they give one, and nothing else. -/
theorem printed_configuration_is_the_loaded_one :
    (∀ text c, Config.parse? text = some c →
      (∃ document, Toml.parse? text = some document ∧
        ∀ name now, (name, now) ∈ c.sections →
          ∃ usual, (name, usual) ∈ ({} : Config).sections ∧ Config.Follows document name now usual) ∧
      ∃ printed, c.render? = some printed ∧ Config.parse? printed = some c) ∧
    (∀ c : Config, c.isRenderable = true →
      ∃ printed, c.render? = some printed ∧ Config.parse? printed = some c) ∧
    ∀ (files : String → Option Bytes) (salt : Bytes) (now : Instant) (args : List String)
      (a : Arguments) (c : Config), Arguments.parse args = .ok a → a.command = .configFile →
      Loaded files a.config c →
      ∃ printed, run files salt now args = .ended { out := printed } ∧
        Config.parse? printed = some (c.withLogLevel a.logLevel) := by
  refine ⟨?_, fun c => Config.parse?_render, ?_⟩
  · intro text c hparse
    obtain ⟨document, hdocument, hc⟩ := Option.bind_eq_some_iff.mp hparse
    refine ⟨⟨document, hdocument, ?_⟩, Config.parse?_render (Config.isRenderable_of_parse? hparse)⟩
    intro name now hnow
    exact Config.sections_follow (Toml.proper_of_parse? hdocument) hc hnow
  · intro files salt now args a c hargs hcommand hloaded
    have hrenderable : (c.withLogLevel a.logLevel).isRenderable = true := hloaded.isRenderable
    obtain ⟨printed, hprinted, hread⟩ := Config.parse?_render hrenderable
    refine ⟨printed, ?_, hread⟩
    simp only [run, hargs, configuration_of_loaded hloaded, hcommand, printConfig, hprinted]

/-! A sample: a file names two fields of one section, one of them with quotes and a line feed in it. -/

def sampleText : String := "[kafka]\nbrokers = [\"a:9092\"]\npassword = \"\\\"\\n\"\n"

def sampleConfig : Config := { kafka := { brokers := ["a:9092"], password := "\"\n" } }

def sampleFiles (path : String) : Option Bytes :=
  if path = "a.toml" then some (Bytes.utf8 sampleText) else none

theorem sampleText_parse : Config.parse? sampleText = some sampleConfig := by decide +kernel

def sampleNow : Instant := ⟨⟨2026, 3, 1, by decide⟩, 3600, 0, by decide⟩

def sampleArguments : List String := ["--config", "a.toml", "configfile", "--log-level", "debug"]

theorem sample_is_printed :
    (∃ document usual, Toml.parse? sampleText = some document ∧
      ("kafka", usual) ∈ ({} : Config).sections ∧
      Config.Follows document "kafka" sampleConfig.kafka.settings usual) ∧
    (∃ printed, sampleConfig.render? = some printed ∧ Config.parse? printed = some sampleConfig) ∧
    ∃ printed, run sampleFiles [] sampleNow sampleArguments = .ended { out := printed } ∧
      Config.parse? printed = some { sampleConfig with general := { logLevel := "debug" } } := by
  obtain ⟨hread, hrender, hprint⟩ := printed_configuration_is_the_loaded_one
  obtain ⟨⟨document, hdocument, hsections⟩, -⟩ := hread sampleText sampleConfig sampleText_parse
  obtain ⟨usual, husual, hfollows⟩ := hsections "kafka" sampleConfig.kafka.settings
    (by simp [Config.sections])
  have harguments : Arguments.parse sampleArguments = .ok ⟨.configFile, "a.toml", "debug"⟩ := by
    decide
  have hfile : Holds (sampleFiles "a.toml") sampleConfig :=
    ⟨Bytes.utf8 sampleText, sampleText, rfl, Bytes.ofUtf8?_utf8 sampleText, sampleText_parse⟩
  exact ⟨⟨document, usual, hdocument, husual, hfollows⟩, hrender sampleConfig (by decide),
    hprint sampleFiles [] sampleNow sampleArguments _ sampleConfig harguments rfl (.named hfile)⟩

end Cli

end CompanyRegistry
