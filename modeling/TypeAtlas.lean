import TypeAtlas.Fault
import TypeAtlas.Log
import TypeAtlas.Text.Basic
import TypeAtlas.Text.Quoted
import TypeAtlas.Number.Double
import TypeAtlas.Options
import TypeAtlas.Bytes
import TypeAtlas.Metadata.Layout
import TypeAtlas.Metadata.Header
import TypeAtlas.Metadata.Blob
import TypeAtlas.Metadata.Rows
import TypeAtlas.Graph.Definition
import TypeAtlas.Graph.Interned
import TypeAtlas.Graph.Reference
import TypeAtlas.Graph.TypeGraph
import TypeAtlas.Graph.Link
import TypeAtlas.Graph.Build
import TypeAtlas.Image.AddressSpace
import TypeAtlas.Image.Load
import TypeAtlas.Parsing.Formats
import TypeAtlas.Image.Memory
import TypeAtlas.Registration.Locate
import TypeAtlas.Session
import TypeAtlas.Proofs.Text.Utf8
import TypeAtlas.Proofs.Metadata.Ambiguity
import TypeAtlas.Proofs.Metadata.Detection
import TypeAtlas.Proofs.Metadata.RoundTrip
import TypeAtlas.Proofs.Linking.Accepting
import TypeAtlas.Proofs.Linking.Agreement
import TypeAtlas.Proofs.Linking.Building
import TypeAtlas.Proofs.Linking.Canonical
import TypeAtlas.Proofs.Linking.Closed
import TypeAtlas.Proofs.Linking.Constants
import TypeAtlas.Proofs.Linking.Containment
import TypeAtlas.Proofs.Linking.Cycles
import TypeAtlas.Proofs.Linking.Ending
import TypeAtlas.Proofs.Linking.Ladder
import TypeAtlas.Proofs.Linking.Names
import TypeAtlas.Proofs.Linking.Owners
import TypeAtlas.Proofs.Linking.Ranges
import TypeAtlas.Proofs.Linking.Repeats
import TypeAtlas.Proofs.Linking.Sharing
import TypeAtlas.Proofs.Linking.Unused
import TypeAtlas.Proofs.Options.Address
import TypeAtlas.Proofs.Image.Symbols
import TypeAtlas.Proofs.Image.Contents
import TypeAtlas.Proofs.Image.Dumps
import TypeAtlas.Proofs.Image.Placement
import TypeAtlas.Proofs.Image.Reading
import TypeAtlas.Proofs.Registration.Alignment
import TypeAtlas.Proofs.Registration.Arrays
import TypeAtlas.Proofs.Registration.Candidates
import TypeAtlas.Proofs.Registration.Stored
import TypeAtlas.Proofs.Resolution.Addresses
import TypeAtlas.Proofs.Resolution.Attached
import TypeAtlas.Proofs.Resolution.Locality
import TypeAtlas.Proofs.Resolution.Overlaps
import TypeAtlas.Proofs.Resolution.Unresolved
import TypeAtlas.Proofs.Session.Asking
import TypeAtlas.Proofs.Session.Lookup
import TypeAtlas.Proofs.Session.Opening
