import LateBinding.Symbol.Slot

/-!
**The functions of the library, group by group, in the order in which they are bound.**

The functions that pass floating-point numbers form a table of their own, because a platform that
cannot pass them does not bind them.

Main definitions:

* `LateBinding.Symbol.mainTable`, `LateBinding.Symbol.floatTable`;
* `LateBinding.Symbol.groupOf?` — the group of a symbol;
* `LateBinding.Symbol.slot?` — the function that an operation calls.
-/

set_option autoImplicit false

namespace LateBinding.Symbol

/-- The functions of the group `buffer`. -/
def bufferSlots : List Slot := inGroup "buffer" [
  ("buffer_create", "Cronet_Buffer_Create", [], .handle .buffer),
  ("buffer_destroy", "Cronet_Buffer_Destroy", [.handle .buffer], .unit),
  ("buffer_set_client_context", "Cronet_Buffer_SetClientContext",
    [.handle .buffer, .context], .unit),
  ("buffer_get_client_context", "Cronet_Buffer_GetClientContext", [.handle .buffer], .context),
  ("buffer_init_with_data_and_callback", "Cronet_Buffer_InitWithDataAndCallback",
    [.handle .buffer, .data, .uint64, .handle .bufferCallback], .unit),
  ("buffer_init_with_alloc", "Cronet_Buffer_InitWithAlloc", [.handle .buffer, .uint64], .unit),
  ("buffer_get_size", "Cronet_Buffer_GetSize", [.handle .buffer], .uint64),
  ("buffer_get_data", "Cronet_Buffer_GetData", [.handle .buffer], .data)]

/-- The functions of the group `buffer_callback`. -/
def bufferCallbackSlots : List Slot := inGroup "buffer_callback" [
  ("buffer_callback_destroy", "Cronet_BufferCallback_Destroy", [.handle .bufferCallback], .unit),
  ("buffer_callback_set_client_context", "Cronet_BufferCallback_SetClientContext",
    [.handle .bufferCallback, .context], .unit),
  ("buffer_callback_get_client_context", "Cronet_BufferCallback_GetClientContext",
    [.handle .bufferCallback], .context),
  ("buffer_callback_create_with", "Cronet_BufferCallback_CreateWith",
    [.function], .handle .bufferCallback)]

/-- The functions of the group `runnable`. -/
def runnableSlots : List Slot := inGroup "runnable" [
  ("runnable_destroy", "Cronet_Runnable_Destroy", [.handle .runnable], .unit),
  ("runnable_set_client_context", "Cronet_Runnable_SetClientContext",
    [.handle .runnable, .context], .unit),
  ("runnable_get_client_context", "Cronet_Runnable_GetClientContext",
    [.handle .runnable], .context),
  ("runnable_run", "Cronet_Runnable_Run", [.handle .runnable], .unit),
  ("runnable_create_with", "Cronet_Runnable_CreateWith", [.function], .handle .runnable)]

/-- The functions of the group `executor`. -/
def executorSlots : List Slot := inGroup "executor" [
  ("executor_destroy", "Cronet_Executor_Destroy", [.handle .executor], .unit),
  ("executor_set_client_context", "Cronet_Executor_SetClientContext",
    [.handle .executor, .context], .unit),
  ("executor_get_client_context", "Cronet_Executor_GetClientContext",
    [.handle .executor], .context),
  ("executor_execute", "Cronet_Executor_Execute", [.handle .executor, .handle .runnable], .unit),
  ("executor_create_with", "Cronet_Executor_CreateWith", [.function], .handle .executor)]

/-- The functions of the group `engine`. -/
def engineSlots : List Slot := inGroup "engine" [
  ("engine_create", "Cronet_Engine_Create", [], .handle .engine),
  ("engine_destroy", "Cronet_Engine_Destroy", [.handle .engine], .unit),
  ("engine_set_client_context", "Cronet_Engine_SetClientContext",
    [.handle .engine, .context], .unit),
  ("engine_get_client_context", "Cronet_Engine_GetClientContext", [.handle .engine], .context),
  ("engine_start_with_params", "Cronet_Engine_StartWithParams",
    [.handle .engine, .handle .engineParams], .code .resultCode),
  ("engine_start_net_log_to_file", "Cronet_Engine_StartNetLogToFile",
    [.handle .engine, .path, .bool], .bool),
  ("engine_stop_net_log", "Cronet_Engine_StopNetLog", [.handle .engine], .unit),
  ("engine_shutdown", "Cronet_Engine_Shutdown", [.handle .engine], .code .resultCode),
  ("engine_get_version_string", "Cronet_Engine_GetVersionString", [.handle .engine], .text),
  ("engine_get_default_user_agent", "Cronet_Engine_GetDefaultUserAgent", [.handle .engine], .text),
  ("engine_add_request_finished_listener", "Cronet_Engine_AddRequestFinishedListener",
    [.handle .engine, .handle .requestFinishedInfoListener, .handle .executor], .unit),
  ("engine_remove_request_finished_listener", "Cronet_Engine_RemoveRequestFinishedListener",
    [.handle .engine, .handle .requestFinishedInfoListener], .unit),
  ("engine_get_stream_engine", "Cronet_Engine_GetStreamEngine",
    [.handle .engine], .handle .streamEngine),
  ("engine_set_mock_cert_verifier_for_testing", "Cronet_Engine_SetMockCertVerifierForTesting",
    [.handle .engine, .handle .certVerifier], .unit)]

/-- The functions of the group `engine_params`. -/
def engineParamsSlots : List Slot := inGroup "engine_params" [
  ("engine_params_create", "Cronet_EngineParams_Create", [], .handle .engineParams),
  ("engine_params_destroy", "Cronet_EngineParams_Destroy", [.handle .engineParams], .unit),
  ("engine_params_enable_check_result_set", "Cronet_EngineParams_enable_check_result_set",
    [.handle .engineParams, .bool], .unit),
  ("engine_params_user_agent_set", "Cronet_EngineParams_user_agent_set",
    [.handle .engineParams, .text], .unit),
  ("engine_params_accept_language_set", "Cronet_EngineParams_accept_language_set",
    [.handle .engineParams, .text], .unit),
  ("engine_params_storage_path_set", "Cronet_EngineParams_storage_path_set",
    [.handle .engineParams, .text], .unit),
  ("engine_params_enable_quic_set", "Cronet_EngineParams_enable_quic_set",
    [.handle .engineParams, .bool], .unit),
  ("engine_params_enable_http2_set", "Cronet_EngineParams_enable_http2_set",
    [.handle .engineParams, .bool], .unit),
  ("engine_params_enable_brotli_set", "Cronet_EngineParams_enable_brotli_set",
    [.handle .engineParams, .bool], .unit),
  ("engine_params_http_cache_mode_set", "Cronet_EngineParams_http_cache_mode_set",
    [.handle .engineParams, .code .httpCacheMode], .unit),
  ("engine_params_http_cache_max_size_set", "Cronet_EngineParams_http_cache_max_size_set",
    [.handle .engineParams, .int64], .unit),
  ("engine_params_quic_hints_add", "Cronet_EngineParams_quic_hints_add",
    [.handle .engineParams, .handle .quicHint], .unit),
  ("engine_params_public_key_pins_add", "Cronet_EngineParams_public_key_pins_add",
    [.handle .engineParams, .handle .publicKeyPins], .unit),
  ("engine_params_enable_public_key_pinning_bypass_for_local_trust_anchors_set",
    "Cronet_EngineParams_enable_public_key_pinning_bypass_for_local_trust_anchors_set",
    [.handle .engineParams, .bool], .unit),
  ("engine_params_experimental_options_set", "Cronet_EngineParams_experimental_options_set",
    [.handle .engineParams, .text], .unit),
  ("engine_params_enable_check_result_get", "Cronet_EngineParams_enable_check_result_get",
    [.handle .engineParams], .bool),
  ("engine_params_user_agent_get", "Cronet_EngineParams_user_agent_get",
    [.handle .engineParams], .text),
  ("engine_params_accept_language_get", "Cronet_EngineParams_accept_language_get",
    [.handle .engineParams], .text),
  ("engine_params_storage_path_get", "Cronet_EngineParams_storage_path_get",
    [.handle .engineParams], .text),
  ("engine_params_enable_quic_get", "Cronet_EngineParams_enable_quic_get",
    [.handle .engineParams], .bool),
  ("engine_params_enable_http2_get", "Cronet_EngineParams_enable_http2_get",
    [.handle .engineParams], .bool),
  ("engine_params_enable_brotli_get", "Cronet_EngineParams_enable_brotli_get",
    [.handle .engineParams], .bool),
  ("engine_params_http_cache_mode_get", "Cronet_EngineParams_http_cache_mode_get",
    [.handle .engineParams], .code .httpCacheMode),
  ("engine_params_http_cache_max_size_get", "Cronet_EngineParams_http_cache_max_size_get",
    [.handle .engineParams], .int64),
  ("engine_params_quic_hints_size", "Cronet_EngineParams_quic_hints_size",
    [.handle .engineParams], .uint32),
  ("engine_params_quic_hints_at", "Cronet_EngineParams_quic_hints_at",
    [.handle .engineParams, .uint32], .handle .quicHint),
  ("engine_params_quic_hints_clear", "Cronet_EngineParams_quic_hints_clear",
    [.handle .engineParams], .unit),
  ("engine_params_public_key_pins_size", "Cronet_EngineParams_public_key_pins_size",
    [.handle .engineParams], .uint32),
  ("engine_params_public_key_pins_at", "Cronet_EngineParams_public_key_pins_at",
    [.handle .engineParams, .uint32], .handle .publicKeyPins),
  ("engine_params_public_key_pins_clear", "Cronet_EngineParams_public_key_pins_clear",
    [.handle .engineParams], .unit),
  ("engine_params_enable_public_key_pinning_bypass_for_local_trust_anchors_get",
    "Cronet_EngineParams_enable_public_key_pinning_bypass_for_local_trust_anchors_get",
    [.handle .engineParams], .bool),
  ("engine_params_experimental_options_get", "Cronet_EngineParams_experimental_options_get",
    [.handle .engineParams], .text)]

/-- The functions of the group `url_request`. -/
def urlRequestSlots : List Slot := inGroup "url_request" [
  ("url_request_create", "Cronet_UrlRequest_Create", [], .handle .urlRequest),
  ("url_request_destroy", "Cronet_UrlRequest_Destroy", [.handle .urlRequest], .unit),
  ("url_request_set_client_context", "Cronet_UrlRequest_SetClientContext",
    [.handle .urlRequest, .context], .unit),
  ("url_request_get_client_context", "Cronet_UrlRequest_GetClientContext",
    [.handle .urlRequest], .context),
  ("url_request_init_with_params", "Cronet_UrlRequest_InitWithParams",
    [.handle .urlRequest, .handle .engine, .text, .handle .urlRequestParams,
      .handle .urlRequestCallback, .handle .executor], .code .resultCode),
  ("url_request_start", "Cronet_UrlRequest_Start", [.handle .urlRequest], .code .resultCode),
  ("url_request_follow_redirect", "Cronet_UrlRequest_FollowRedirect",
    [.handle .urlRequest], .code .resultCode),
  ("url_request_read", "Cronet_UrlRequest_Read",
    [.handle .urlRequest, .handle .buffer], .code .resultCode),
  ("url_request_cancel", "Cronet_UrlRequest_Cancel", [.handle .urlRequest], .unit),
  ("url_request_is_done", "Cronet_UrlRequest_IsDone", [.handle .urlRequest], .bool),
  ("url_request_get_status", "Cronet_UrlRequest_GetStatus",
    [.handle .urlRequest, .handle .urlRequestStatusListener], .unit)]

/-- The functions of the group `url_request_params`. -/
def urlRequestParamsSlots : List Slot := inGroup "url_request_params" [
  ("url_request_params_create", "Cronet_UrlRequestParams_Create", [], .handle .urlRequestParams),
  ("url_request_params_destroy", "Cronet_UrlRequestParams_Destroy",
    [.handle .urlRequestParams], .unit),
  ("url_request_params_http_method_set", "Cronet_UrlRequestParams_http_method_set",
    [.handle .urlRequestParams, .text], .unit),
  ("url_request_params_request_headers_add", "Cronet_UrlRequestParams_request_headers_add",
    [.handle .urlRequestParams, .handle .httpHeader], .unit),
  ("url_request_params_disable_cache_set", "Cronet_UrlRequestParams_disable_cache_set",
    [.handle .urlRequestParams, .bool], .unit),
  ("url_request_params_priority_set", "Cronet_UrlRequestParams_priority_set",
    [.handle .urlRequestParams, .code .requestPriority], .unit),
  ("url_request_params_upload_data_provider_set",
    "Cronet_UrlRequestParams_upload_data_provider_set",
    [.handle .urlRequestParams, .handle .uploadDataProvider], .unit),
  ("url_request_params_upload_data_provider_executor_set",
    "Cronet_UrlRequestParams_upload_data_provider_executor_set",
    [.handle .urlRequestParams, .handle .executor], .unit),
  ("url_request_params_allow_direct_executor_set",
    "Cronet_UrlRequestParams_allow_direct_executor_set",
    [.handle .urlRequestParams, .bool], .unit),
  ("url_request_params_annotations_add", "Cronet_UrlRequestParams_annotations_add",
    [.handle .urlRequestParams, .context], .unit),
  ("url_request_params_request_finished_listener_set",
    "Cronet_UrlRequestParams_request_finished_listener_set",
    [.handle .urlRequestParams, .handle .requestFinishedInfoListener], .unit),
  ("url_request_params_request_finished_executor_set",
    "Cronet_UrlRequestParams_request_finished_executor_set",
    [.handle .urlRequestParams, .handle .executor], .unit),
  ("url_request_params_idempotency_set", "Cronet_UrlRequestParams_idempotency_set",
    [.handle .urlRequestParams, .code .idempotency], .unit),
  ("url_request_params_http_method_get", "Cronet_UrlRequestParams_http_method_get",
    [.handle .urlRequestParams], .text),
  ("url_request_params_request_headers_size", "Cronet_UrlRequestParams_request_headers_size",
    [.handle .urlRequestParams], .uint32),
  ("url_request_params_request_headers_at", "Cronet_UrlRequestParams_request_headers_at",
    [.handle .urlRequestParams, .uint32], .handle .httpHeader),
  ("url_request_params_request_headers_clear", "Cronet_UrlRequestParams_request_headers_clear",
    [.handle .urlRequestParams], .unit),
  ("url_request_params_disable_cache_get", "Cronet_UrlRequestParams_disable_cache_get",
    [.handle .urlRequestParams], .bool),
  ("url_request_params_priority_get", "Cronet_UrlRequestParams_priority_get",
    [.handle .urlRequestParams], .code .requestPriority),
  ("url_request_params_upload_data_provider_get",
    "Cronet_UrlRequestParams_upload_data_provider_get",
    [.handle .urlRequestParams], .handle .uploadDataProvider),
  ("url_request_params_upload_data_provider_executor_get",
    "Cronet_UrlRequestParams_upload_data_provider_executor_get",
    [.handle .urlRequestParams], .handle .executor),
  ("url_request_params_allow_direct_executor_get",
    "Cronet_UrlRequestParams_allow_direct_executor_get",
    [.handle .urlRequestParams], .bool),
  ("url_request_params_annotations_size", "Cronet_UrlRequestParams_annotations_size",
    [.handle .urlRequestParams], .uint32),
  ("url_request_params_annotations_at", "Cronet_UrlRequestParams_annotations_at",
    [.handle .urlRequestParams, .uint32], .context),
  ("url_request_params_annotations_clear", "Cronet_UrlRequestParams_annotations_clear",
    [.handle .urlRequestParams], .unit),
  ("url_request_params_request_finished_listener_get",
    "Cronet_UrlRequestParams_request_finished_listener_get",
    [.handle .urlRequestParams], .handle .requestFinishedInfoListener),
  ("url_request_params_request_finished_executor_get",
    "Cronet_UrlRequestParams_request_finished_executor_get",
    [.handle .urlRequestParams], .handle .executor),
  ("url_request_params_idempotency_get", "Cronet_UrlRequestParams_idempotency_get",
    [.handle .urlRequestParams], .code .idempotency)]

/-- The functions of the group `url_request_callback`. -/
def urlRequestCallbackSlots : List Slot := inGroup "url_request_callback" [
  ("url_request_callback_destroy", "Cronet_UrlRequestCallback_Destroy",
    [.handle .urlRequestCallback], .unit),
  ("url_request_callback_set_client_context", "Cronet_UrlRequestCallback_SetClientContext",
    [.handle .urlRequestCallback, .context], .unit),
  ("url_request_callback_get_client_context", "Cronet_UrlRequestCallback_GetClientContext",
    [.handle .urlRequestCallback], .context),
  ("url_request_callback_create_with", "Cronet_UrlRequestCallback_CreateWith",
    [.function, .function, .function, .function, .function, .function],
      .handle .urlRequestCallback)]

/-- The functions of the group `url_request_status_listener`. -/
def urlRequestStatusListenerSlots : List Slot := inGroup "url_request_status_listener" [
  ("url_request_status_listener_destroy", "Cronet_UrlRequestStatusListener_Destroy",
    [.handle .urlRequestStatusListener], .unit),
  ("url_request_status_listener_set_client_context",
    "Cronet_UrlRequestStatusListener_SetClientContext",
    [.handle .urlRequestStatusListener, .context], .unit),
  ("url_request_status_listener_get_client_context",
    "Cronet_UrlRequestStatusListener_GetClientContext",
    [.handle .urlRequestStatusListener], .context),
  ("url_request_status_listener_create_with", "Cronet_UrlRequestStatusListener_CreateWith",
    [.function], .handle .urlRequestStatusListener)]

/-- The functions of the group `upload_data_provider`. -/
def uploadDataProviderSlots : List Slot := inGroup "upload_data_provider" [
  ("upload_data_provider_destroy", "Cronet_UploadDataProvider_Destroy",
    [.handle .uploadDataProvider], .unit),
  ("upload_data_provider_set_client_context", "Cronet_UploadDataProvider_SetClientContext",
    [.handle .uploadDataProvider, .context], .unit),
  ("upload_data_provider_get_client_context", "Cronet_UploadDataProvider_GetClientContext",
    [.handle .uploadDataProvider], .context),
  ("upload_data_provider_create_with", "Cronet_UploadDataProvider_CreateWith",
    [.function, .function, .function, .function], .handle .uploadDataProvider)]

/-- The functions of the group `upload_data_sink`. -/
def uploadDataSinkSlots : List Slot := inGroup "upload_data_sink" [
  ("upload_data_sink_destroy", "Cronet_UploadDataSink_Destroy", [.handle .uploadDataSink], .unit),
  ("upload_data_sink_set_client_context", "Cronet_UploadDataSink_SetClientContext",
    [.handle .uploadDataSink, .context], .unit),
  ("upload_data_sink_get_client_context", "Cronet_UploadDataSink_GetClientContext",
    [.handle .uploadDataSink], .context),
  ("upload_data_sink_on_read_succeeded", "Cronet_UploadDataSink_OnReadSucceeded",
    [.handle .uploadDataSink, .uint64, .bool], .unit),
  ("upload_data_sink_on_read_error", "Cronet_UploadDataSink_OnReadError",
    [.handle .uploadDataSink, .text], .unit),
  ("upload_data_sink_on_rewind_succeeded", "Cronet_UploadDataSink_OnRewindSucceeded",
    [.handle .uploadDataSink], .unit),
  ("upload_data_sink_on_rewind_error", "Cronet_UploadDataSink_OnRewindError",
    [.handle .uploadDataSink, .text], .unit)]

/-- The functions of the group `url_response_info`. -/
def urlResponseInfoSlots : List Slot := inGroup "url_response_info" [
  ("url_response_info_create", "Cronet_UrlResponseInfo_Create", [], .handle .urlResponseInfo),
  ("url_response_info_destroy", "Cronet_UrlResponseInfo_Destroy",
    [.handle .urlResponseInfo], .unit),
  ("url_response_info_url_set", "Cronet_UrlResponseInfo_url_set",
    [.handle .urlResponseInfo, .text], .unit),
  ("url_response_info_url_chain_add", "Cronet_UrlResponseInfo_url_chain_add",
    [.handle .urlResponseInfo, .text], .unit),
  ("url_response_info_http_status_code_set", "Cronet_UrlResponseInfo_http_status_code_set",
    [.handle .urlResponseInfo, .int32], .unit),
  ("url_response_info_http_status_text_set", "Cronet_UrlResponseInfo_http_status_text_set",
    [.handle .urlResponseInfo, .text], .unit),
  ("url_response_info_all_headers_list_add", "Cronet_UrlResponseInfo_all_headers_list_add",
    [.handle .urlResponseInfo, .handle .httpHeader], .unit),
  ("url_response_info_was_cached_set", "Cronet_UrlResponseInfo_was_cached_set",
    [.handle .urlResponseInfo, .bool], .unit),
  ("url_response_info_negotiated_protocol_set", "Cronet_UrlResponseInfo_negotiated_protocol_set",
    [.handle .urlResponseInfo, .text], .unit),
  ("url_response_info_proxy_server_set", "Cronet_UrlResponseInfo_proxy_server_set",
    [.handle .urlResponseInfo, .text], .unit),
  ("url_response_info_received_byte_count_set", "Cronet_UrlResponseInfo_received_byte_count_set",
    [.handle .urlResponseInfo, .int64], .unit),
  ("url_response_info_url_get", "Cronet_UrlResponseInfo_url_get",
    [.handle .urlResponseInfo], .text),
  ("url_response_info_url_chain_size", "Cronet_UrlResponseInfo_url_chain_size",
    [.handle .urlResponseInfo], .uint32),
  ("url_response_info_url_chain_at", "Cronet_UrlResponseInfo_url_chain_at",
    [.handle .urlResponseInfo, .uint32], .text),
  ("url_response_info_url_chain_clear", "Cronet_UrlResponseInfo_url_chain_clear",
    [.handle .urlResponseInfo], .unit),
  ("url_response_info_http_status_code_get", "Cronet_UrlResponseInfo_http_status_code_get",
    [.handle .urlResponseInfo], .int32),
  ("url_response_info_http_status_text_get", "Cronet_UrlResponseInfo_http_status_text_get",
    [.handle .urlResponseInfo], .text),
  ("url_response_info_all_headers_list_size", "Cronet_UrlResponseInfo_all_headers_list_size",
    [.handle .urlResponseInfo], .uint32),
  ("url_response_info_all_headers_list_at", "Cronet_UrlResponseInfo_all_headers_list_at",
    [.handle .urlResponseInfo, .uint32], .handle .httpHeader),
  ("url_response_info_all_headers_list_clear", "Cronet_UrlResponseInfo_all_headers_list_clear",
    [.handle .urlResponseInfo], .unit),
  ("url_response_info_was_cached_get", "Cronet_UrlResponseInfo_was_cached_get",
    [.handle .urlResponseInfo], .bool),
  ("url_response_info_negotiated_protocol_get", "Cronet_UrlResponseInfo_negotiated_protocol_get",
    [.handle .urlResponseInfo], .text),
  ("url_response_info_proxy_server_get", "Cronet_UrlResponseInfo_proxy_server_get",
    [.handle .urlResponseInfo], .text),
  ("url_response_info_received_byte_count_get", "Cronet_UrlResponseInfo_received_byte_count_get",
    [.handle .urlResponseInfo], .int64)]

/-- The functions of the group `error`. -/
def errorSlots : List Slot := inGroup "error" [
  ("error_create", "Cronet_Error_Create", [], .handle .error),
  ("error_destroy", "Cronet_Error_Destroy", [.handle .error], .unit),
  ("error_error_code_set", "Cronet_Error_error_code_set",
    [.handle .error, .code .errorCode], .unit),
  ("error_message_set", "Cronet_Error_message_set", [.handle .error, .text], .unit),
  ("error_internal_error_code_set", "Cronet_Error_internal_error_code_set",
    [.handle .error, .int32], .unit),
  ("error_immediately_retryable_set", "Cronet_Error_immediately_retryable_set",
    [.handle .error, .bool], .unit),
  ("error_quic_detailed_error_code_set", "Cronet_Error_quic_detailed_error_code_set",
    [.handle .error, .int32], .unit),
  ("error_error_code_get", "Cronet_Error_error_code_get", [.handle .error], .code .errorCode),
  ("error_message_get", "Cronet_Error_message_get", [.handle .error], .text),
  ("error_internal_error_code_get", "Cronet_Error_internal_error_code_get",
    [.handle .error], .int32),
  ("error_immediately_retryable_get", "Cronet_Error_immediately_retryable_get",
    [.handle .error], .bool),
  ("error_quic_detailed_error_code_get", "Cronet_Error_quic_detailed_error_code_get",
    [.handle .error], .int32)]

/-- The functions of the group `http_header`. -/
def httpHeaderSlots : List Slot := inGroup "http_header" [
  ("http_header_create", "Cronet_HttpHeader_Create", [], .handle .httpHeader),
  ("http_header_destroy", "Cronet_HttpHeader_Destroy", [.handle .httpHeader], .unit),
  ("http_header_name_set", "Cronet_HttpHeader_name_set", [.handle .httpHeader, .text], .unit),
  ("http_header_value_set", "Cronet_HttpHeader_value_set", [.handle .httpHeader, .text], .unit),
  ("http_header_name_get", "Cronet_HttpHeader_name_get", [.handle .httpHeader], .text),
  ("http_header_value_get", "Cronet_HttpHeader_value_get", [.handle .httpHeader], .text)]

/-- The functions of the group `quic_hint`. -/
def quicHintSlots : List Slot := inGroup "quic_hint" [
  ("quic_hint_create", "Cronet_QuicHint_Create", [], .handle .quicHint),
  ("quic_hint_destroy", "Cronet_QuicHint_Destroy", [.handle .quicHint], .unit),
  ("quic_hint_host_set", "Cronet_QuicHint_host_set", [.handle .quicHint, .text], .unit),
  ("quic_hint_port_set", "Cronet_QuicHint_port_set", [.handle .quicHint, .int32], .unit),
  ("quic_hint_alternate_port_set", "Cronet_QuicHint_alternate_port_set",
    [.handle .quicHint, .int32], .unit),
  ("quic_hint_host_get", "Cronet_QuicHint_host_get", [.handle .quicHint], .text),
  ("quic_hint_port_get", "Cronet_QuicHint_port_get", [.handle .quicHint], .int32),
  ("quic_hint_alternate_port_get", "Cronet_QuicHint_alternate_port_get",
    [.handle .quicHint], .int32)]

/-- The functions of the group `public_key_pins`. -/
def publicKeyPinsSlots : List Slot := inGroup "public_key_pins" [
  ("public_key_pins_create", "Cronet_PublicKeyPins_Create", [], .handle .publicKeyPins),
  ("public_key_pins_destroy", "Cronet_PublicKeyPins_Destroy", [.handle .publicKeyPins], .unit),
  ("public_key_pins_host_set", "Cronet_PublicKeyPins_host_set",
    [.handle .publicKeyPins, .text], .unit),
  ("public_key_pins_pins_sha256_add", "Cronet_PublicKeyPins_pins_sha256_add",
    [.handle .publicKeyPins, .text], .unit),
  ("public_key_pins_include_subdomains_set", "Cronet_PublicKeyPins_include_subdomains_set",
    [.handle .publicKeyPins, .bool], .unit),
  ("public_key_pins_expiration_date_set", "Cronet_PublicKeyPins_expiration_date_set",
    [.handle .publicKeyPins, .int64], .unit),
  ("public_key_pins_host_get", "Cronet_PublicKeyPins_host_get", [.handle .publicKeyPins], .text),
  ("public_key_pins_pins_sha256_size", "Cronet_PublicKeyPins_pins_sha256_size",
    [.handle .publicKeyPins], .uint32),
  ("public_key_pins_pins_sha256_at", "Cronet_PublicKeyPins_pins_sha256_at",
    [.handle .publicKeyPins, .uint32], .text),
  ("public_key_pins_pins_sha256_clear", "Cronet_PublicKeyPins_pins_sha256_clear",
    [.handle .publicKeyPins], .unit),
  ("public_key_pins_include_subdomains_get", "Cronet_PublicKeyPins_include_subdomains_get",
    [.handle .publicKeyPins], .bool),
  ("public_key_pins_expiration_date_get", "Cronet_PublicKeyPins_expiration_date_get",
    [.handle .publicKeyPins], .int64)]

/-- The functions of the group `date_time`. -/
def dateTimeSlots : List Slot := inGroup "date_time" [
  ("date_time_create", "Cronet_DateTime_Create", [], .handle .dateTime),
  ("date_time_destroy", "Cronet_DateTime_Destroy", [.handle .dateTime], .unit),
  ("date_time_value_set", "Cronet_DateTime_value_set", [.handle .dateTime, .int64], .unit),
  ("date_time_value_get", "Cronet_DateTime_value_get", [.handle .dateTime], .int64)]

/-- The functions of the group `metrics`. -/
def metricsSlots : List Slot := inGroup "metrics" [
  ("metrics_create", "Cronet_Metrics_Create", [], .handle .metrics),
  ("metrics_destroy", "Cronet_Metrics_Destroy", [.handle .metrics], .unit),
  ("metrics_request_start_set", "Cronet_Metrics_request_start_set",
    [.handle .metrics, .handle .dateTime], .unit),
  ("metrics_dns_start_set", "Cronet_Metrics_dns_start_set",
    [.handle .metrics, .handle .dateTime], .unit),
  ("metrics_dns_end_set", "Cronet_Metrics_dns_end_set",
    [.handle .metrics, .handle .dateTime], .unit),
  ("metrics_connect_start_set", "Cronet_Metrics_connect_start_set",
    [.handle .metrics, .handle .dateTime], .unit),
  ("metrics_connect_end_set", "Cronet_Metrics_connect_end_set",
    [.handle .metrics, .handle .dateTime], .unit),
  ("metrics_ssl_start_set", "Cronet_Metrics_ssl_start_set",
    [.handle .metrics, .handle .dateTime], .unit),
  ("metrics_ssl_end_set", "Cronet_Metrics_ssl_end_set",
    [.handle .metrics, .handle .dateTime], .unit),
  ("metrics_sending_start_set", "Cronet_Metrics_sending_start_set",
    [.handle .metrics, .handle .dateTime], .unit),
  ("metrics_sending_end_set", "Cronet_Metrics_sending_end_set",
    [.handle .metrics, .handle .dateTime], .unit),
  ("metrics_push_start_set", "Cronet_Metrics_push_start_set",
    [.handle .metrics, .handle .dateTime], .unit),
  ("metrics_push_end_set", "Cronet_Metrics_push_end_set",
    [.handle .metrics, .handle .dateTime], .unit),
  ("metrics_response_start_set", "Cronet_Metrics_response_start_set",
    [.handle .metrics, .handle .dateTime], .unit),
  ("metrics_request_end_set", "Cronet_Metrics_request_end_set",
    [.handle .metrics, .handle .dateTime], .unit),
  ("metrics_socket_reused_set", "Cronet_Metrics_socket_reused_set",
    [.handle .metrics, .bool], .unit),
  ("metrics_sent_byte_count_set", "Cronet_Metrics_sent_byte_count_set",
    [.handle .metrics, .int64], .unit),
  ("metrics_received_byte_count_set", "Cronet_Metrics_received_byte_count_set",
    [.handle .metrics, .int64], .unit),
  ("metrics_request_start_get", "Cronet_Metrics_request_start_get",
    [.handle .metrics], .handle .dateTime),
  ("metrics_dns_start_get", "Cronet_Metrics_dns_start_get", [.handle .metrics], .handle .dateTime),
  ("metrics_dns_end_get", "Cronet_Metrics_dns_end_get", [.handle .metrics], .handle .dateTime),
  ("metrics_connect_start_get", "Cronet_Metrics_connect_start_get",
    [.handle .metrics], .handle .dateTime),
  ("metrics_connect_end_get", "Cronet_Metrics_connect_end_get",
    [.handle .metrics], .handle .dateTime),
  ("metrics_ssl_start_get", "Cronet_Metrics_ssl_start_get", [.handle .metrics], .handle .dateTime),
  ("metrics_ssl_end_get", "Cronet_Metrics_ssl_end_get", [.handle .metrics], .handle .dateTime),
  ("metrics_sending_start_get", "Cronet_Metrics_sending_start_get",
    [.handle .metrics], .handle .dateTime),
  ("metrics_sending_end_get", "Cronet_Metrics_sending_end_get",
    [.handle .metrics], .handle .dateTime),
  ("metrics_push_start_get", "Cronet_Metrics_push_start_get",
    [.handle .metrics], .handle .dateTime),
  ("metrics_push_end_get", "Cronet_Metrics_push_end_get", [.handle .metrics], .handle .dateTime),
  ("metrics_response_start_get", "Cronet_Metrics_response_start_get",
    [.handle .metrics], .handle .dateTime),
  ("metrics_request_end_get", "Cronet_Metrics_request_end_get",
    [.handle .metrics], .handle .dateTime),
  ("metrics_socket_reused_get", "Cronet_Metrics_socket_reused_get", [.handle .metrics], .bool),
  ("metrics_sent_byte_count_get", "Cronet_Metrics_sent_byte_count_get", [.handle .metrics], .int64),
  ("metrics_received_byte_count_get", "Cronet_Metrics_received_byte_count_get",
    [.handle .metrics], .int64)]

/-- The functions of the group `request_finished_info`. -/
def requestFinishedInfoSlots : List Slot := inGroup "request_finished_info" [
  ("request_finished_info_create", "Cronet_RequestFinishedInfo_Create",
    [], .handle .requestFinishedInfo),
  ("request_finished_info_destroy", "Cronet_RequestFinishedInfo_Destroy",
    [.handle .requestFinishedInfo], .unit),
  ("request_finished_info_metrics_set", "Cronet_RequestFinishedInfo_metrics_set",
    [.handle .requestFinishedInfo, .handle .metrics], .unit),
  ("request_finished_info_annotations_add", "Cronet_RequestFinishedInfo_annotations_add",
    [.handle .requestFinishedInfo, .context], .unit),
  ("request_finished_info_finished_reason_set", "Cronet_RequestFinishedInfo_finished_reason_set",
    [.handle .requestFinishedInfo, .code .finishedReason], .unit),
  ("request_finished_info_metrics_get", "Cronet_RequestFinishedInfo_metrics_get",
    [.handle .requestFinishedInfo], .handle .metrics),
  ("request_finished_info_annotations_size", "Cronet_RequestFinishedInfo_annotations_size",
    [.handle .requestFinishedInfo], .uint32),
  ("request_finished_info_annotations_at", "Cronet_RequestFinishedInfo_annotations_at",
    [.handle .requestFinishedInfo, .uint32], .context),
  ("request_finished_info_annotations_clear", "Cronet_RequestFinishedInfo_annotations_clear",
    [.handle .requestFinishedInfo], .unit),
  ("request_finished_info_finished_reason_get", "Cronet_RequestFinishedInfo_finished_reason_get",
    [.handle .requestFinishedInfo], .code .finishedReason)]

/-- The functions of the group `request_finished_info_listener`. -/
def requestFinishedInfoListenerSlots : List Slot := inGroup "request_finished_info_listener" [
  ("request_finished_info_listener_destroy", "Cronet_RequestFinishedInfoListener_Destroy",
    [.handle .requestFinishedInfoListener], .unit),
  ("request_finished_info_listener_set_client_context",
    "Cronet_RequestFinishedInfoListener_SetClientContext",
    [.handle .requestFinishedInfoListener, .context], .unit),
  ("request_finished_info_listener_get_client_context",
    "Cronet_RequestFinishedInfoListener_GetClientContext",
    [.handle .requestFinishedInfoListener], .context),
  ("request_finished_info_listener_create_with", "Cronet_RequestFinishedInfoListener_CreateWith",
    [.function], .handle .requestFinishedInfoListener)]

/-- The functions of the group `cert_verifier`. -/
def certVerifierSlots : List Slot := inGroup "cert_verifier" [
  ("create_cert_verifier_with_root_certs", "Cronet_CreateCertVerifierWithRootCerts",
    [.text], .handle .certVerifier),
  ("create_cert_verifier_with_public_key_sha256", "Cronet_CreateCertVerifierWithPublicKeySHA256",
    [.pointers, .uint64], .handle .certVerifier)]

/-- The functions of the group `bidirectional_stream`. -/
def bidirectionalStreamSlots : List Slot := inGroup "bidirectional_stream" [
  ("bidirectional_stream_create", "bidirectional_stream_create",
    [.handle .streamEngine, .context, .function], .handle .bidirectionalStream),
  ("bidirectional_stream_destroy", "bidirectional_stream_destroy",
    [.handle .bidirectionalStream], .code .netError),
  ("bidirectional_stream_disable_auto_flush", "bidirectional_stream_disable_auto_flush",
    [.handle .bidirectionalStream, .bool], .unit),
  ("bidirectional_stream_delay_request_headers_until_flush",
    "bidirectional_stream_delay_request_headers_until_flush",
    [.handle .bidirectionalStream, .bool], .unit),
  ("bidirectional_stream_start", "bidirectional_stream_start",
    [.handle .bidirectionalStream, .text, .int32, .text, .headers, .bool], .code .netError),
  ("bidirectional_stream_read", "bidirectional_stream_read",
    [.handle .bidirectionalStream, .data, .int32], .code .netError),
  ("bidirectional_stream_write", "bidirectional_stream_write",
    [.handle .bidirectionalStream, .data, .int32, .bool], .code .netError),
  ("bidirectional_stream_flush", "bidirectional_stream_flush",
    [.handle .bidirectionalStream], .unit),
  ("bidirectional_stream_cancel", "bidirectional_stream_cancel",
    [.handle .bidirectionalStream], .unit),
  ("bidirectional_stream_set_concurrency_index", "bidirectional_stream_set_concurrency_index",
    [.handle .bidirectionalStream, .int32], .unit)]

/-- The functions of the group `engine_params` that pass floating-point numbers. -/
def engineParamsFloatSlots : List Slot := inGroup "engine_params" [
  ("engine_params_network_thread_priority_set", "Cronet_EngineParams_network_thread_priority_set",
    [.handle .engineParams, .double], .unit),
  ("engine_params_network_thread_priority_get", "Cronet_EngineParams_network_thread_priority_get",
    [.handle .engineParams], .double)]

/-- The functions that every platform binds, in order. -/
def mainTable : List Slot :=
  bufferSlots ++ bufferCallbackSlots ++ runnableSlots ++ executorSlots ++ engineSlots ++
    engineParamsSlots ++ urlRequestSlots ++ urlRequestParamsSlots ++ urlRequestCallbackSlots ++
    urlRequestStatusListenerSlots ++ uploadDataProviderSlots ++ uploadDataSinkSlots ++
    urlResponseInfoSlots ++ errorSlots ++ httpHeaderSlots ++ quicHintSlots ++ publicKeyPinsSlots ++
    dateTimeSlots ++ metricsSlots ++ requestFinishedInfoSlots ++
    requestFinishedInfoListenerSlots ++ certVerifierSlots ++ bidirectionalStreamSlots

/-- The functions that pass floating-point numbers, in order. -/
def floatTable : List Slot := engineParamsFloatSlots

/-- All functions, in order. -/
def allSlots : List Slot := mainTable ++ floatTable

/-- The group of a symbol, if the symbol is that of a function. -/
def groupOf? (symbol : String) : Option String :=
  (allSlots.find? fun s => s.symbol == symbol).map Slot.group

/-- The function that an operation calls under its own name. -/
def slot? (operation : String) : Option Slot :=
  allSlots.find? fun s => s.operation == operation

end LateBinding.Symbol
