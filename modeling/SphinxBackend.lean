import SphinxBackend.Backend.Calls
import SphinxBackend.Backend.Conditions
import SphinxBackend.Backend.Conformity
import SphinxBackend.Backend.CourseModules
import SphinxBackend.Backend.Definedness
import SphinxBackend.Backend.IgnoredIds
import SphinxBackend.Backend.Integers
import SphinxBackend.Backend.Migration
import SphinxBackend.Backend.Noninterference
import SphinxBackend.Backend.NullMembers
import SphinxBackend.Backend.Parameters
import SphinxBackend.Backend.Queries
import SphinxBackend.Backend.ReadBack
import SphinxBackend.Backend.Reading
import SphinxBackend.Backend.References
import SphinxBackend.Backend.RoundTrip
import SphinxBackend.Backend.Rows
import SphinxBackend.Backend.StartUp
import SphinxBackend.Db.Alignment
import SphinxBackend.Db.Codec
import SphinxBackend.Db.Results
import SphinxBackend.Json.Extension
